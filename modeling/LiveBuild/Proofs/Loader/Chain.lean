/-
# Names in a chain of loaders

Loaders can stand one above the other, over a host that is the base of the chain.  A loader asks
its parent by a lookup, in which a name that is not found is no error, and makes an error of
that again.  So on the way down a chain and up again "not found" is turned to and fro:

| | answers a handle | has nothing | fails |
| --- | --- | --- | --- |
| a lookup, seen by the loader below (`Loader.LookupAnswer.resolved`) | the handle | not found | the error |
| a resolution, seen as a lookup (`Loader.Answer.lookedUp`) | the handle | | nothing, or the error |

Both ways together change nothing (`lookedUp_resolved`, `resolved_lookedUp`), as long as nobody
fails with "not found" on his own account (`Materializer.NeverNotFound`, `Host.NeverNotFound`).
So a name is resolved by the first loader that owns it, as if that one had been asked, or else
by the base (`find?_over`, `resolve_chain`).
-/

import LiveBuild.Proofs.Handles.Run

namespace LiveBuild

/-- A materializer whose errors never say that something was not found. -/
def Materializer.NeverNotFound (m : Materializer) : Prop :=
  ∀ earlier c n, m.answer earlier c ≠ .error (.artifactNotFound n)

/-- A host that answers nothing where there is nothing, instead of failing with "not found". -/
def Host.NeverNotFound (h : Host) : Prop :=
  ∀ name s n, ((h.find? name).attempt s).1 ≠ .error (.artifactNotFound n)

namespace Materializer

/-- To make an image never fails. -/
theorem neverNotFound_image (id : Nat) : (image id).NeverNotFound := by
  rintro earlier c n ⟨⟩

/-- A materializer that fails on purpose says so, and not that something was not found. -/
theorem neverNotFound_failing (id : Nat) (failures : Table String Nat) :
    (failing id failures).NeverNotFound := by
  intro earlier c n
  show (if _ then _ else _) ≠ _
  split <;> simp

end Materializer

/-- To read a member fails in other ways. -/
theorem Archive.readMember?_ne_notFound (fs : FileSystem) (p : Path) (member n : String) :
    readMember? fs p member ≠ .error (.artifactNotFound n) := by
  unfold readMember? openAt
  cases fs.read p with
  | error e => cases e <;> simp
  | ok file =>
    cases hfile : ofBytes file with
    | error fault => simp [hfile]
    | ok a => cases hread : a.read? member with
      | none => simp [hfile, hread]
      | some read => rcases read with ⟨_ | _⟩ | contents <;> simp [hfile, hread]

/-- A class path fails with what went wrong in reading, never with "not found". -/
theorem ClassPath.firstHit_ne_notFound (fs : FileSystem) (relative : String)
    (entries : List ClassPathEntry) (n : String) :
    firstHit fs relative entries ≠ .error (.artifactNotFound n) := by
  induction entries with
  | nil => simp [firstHit]
  | cons entry entries ih =>
    have hentry : entry.read? fs relative ≠ .error (.artifactNotFound n) := by
      cases entry with
      | directory path =>
        rw [ClassPathEntry.read?]
        split
        · split <;> simp
        · simp
      | archive path => exact Archive.readMember?_ne_notFound fs path relative n
    rw [firstHit]
    split
    · exact ih
    · exact hentry

/-- A class path answers nothing where it has nothing, if its materializer never fails so. -/
theorem Host.neverNotFound_classPath {c : ClassPath} (hm : c.materializer.NeverNotFound) :
    c.toHost.NeverNotFound := by
  intro name s n
  show ((c.find? name).attempt s).1 ≠ _
  rcases c.find?_cases name s with
    ⟨h, -, hx⟩ | ⟨-, ⟨e, hread, hx⟩ | ⟨-, hx⟩ | ⟨bytes, -, ⟨e, hanswer, hx⟩ | ⟨l, -, hx⟩⟩⟩ <;> rw [hx]
  · nofun
  · rintro ⟨⟩
    exact ClassPath.firstHit_ne_notFound _ _ _ n hread
  · nofun
  · rintro ⟨⟩
    exact hm _ _ _ hanswer
  · nofun

namespace Loader

/-- The answer of a resolution, with the store that it leaves behind. -/
abbrev Answer := Except Error (Ref LoadedArtifact) × Store

/-- The answer of a lookup, with the store that it leaves behind. -/
abbrev LookupAnswer := Except Error (Option (Ref LoadedArtifact)) × Store

/-- What the answer to a resolution is to a lookup: what is not found is no error. -/
def Answer.lookedUp : Answer → LookupAnswer
  | (.ok h, t) => (.ok (some h), t)
  | (.error (.artifactNotFound _), t) => (.ok none, t)
  | (.error e, t) => (.error e, t)

/-- What the answer to a lookup of a name is to a resolution: nothing is not found. -/
def LookupAnswer.resolved (name : String) : LookupAnswer → Answer
  | (.ok (some h), t) => (.ok h, t)
  | (.ok none, t) => (.error (.artifactNotFound name), t)
  | (.error e, t) => (.error e, t)

/-- The first of some loaders that owns a name. -/
def nearest? (ls : List Loader) (name : String) (s : Store) : Option Loader :=
  ls.find? fun l => (l.artifact? name s).isSome

variable {base h : Host} {l l' : Loader} {ls : List Loader} {name : String} {s : Store}

/-! ### To and fro -/

/-- What is not found is looked up without an error, and resolved again it is not found. -/
theorem resolved_lookedUp {x : Answer} (hx : ∀ n, x.1 ≠ .error (.artifactNotFound n)) :
    x.lookedUp.resolved name = x := by
  rcases x with ⟨e | a, t⟩
  · cases e with
    | artifactNotFound n => exact absurd rfl (hx n)
    | _ => rfl
  · rfl

/-- **A lookup that is resolved and looked up again is what it was.** -/
theorem lookedUp_resolved {x : LookupAnswer} (hx : ∀ n, x.1 ≠ .error (.artifactNotFound n)) :
    (x.resolved name).lookedUp = x := by
  rcases x with ⟨e | _ | a, t⟩
  · cases e with
    | artifactNotFound n => exact absurd rfl (hx n)
    | _ => rfl
  · rfl
  · rfl

/-- A resolution that is seen as a lookup never says "not found". -/
theorem lookedUp_ne_notFound (x : Answer) (n : String) :
    x.lookedUp.1 ≠ .error (.artifactNotFound n) := by
  rcases x with ⟨e | a, t⟩
  · cases e <;> simp [Answer.lookedUp]
  · simp [Answer.lookedUp]

/-- A lookup that is resolved says "not found" exactly of its own name, where there was nothing. -/
theorem resolved_eq_notFound_iff {x : LookupAnswer} (hx : ∀ n, x.1 ≠ .error (.artifactNotFound n))
    (n : String) :
    (x.resolved name).1 = .error (.artifactNotFound n) ↔ n = name ∧ x.1 = .ok none := by
  rcases x with ⟨e | _ | a, t⟩
  · have he : e ≠ .artifactNotFound n := fun he => hx n (congrArg Except.error he)
    simp [LookupAnswer.resolved, he]
  · simp [LookupAnswer.resolved, eq_comm]
  · simp [LookupAnswer.resolved]

@[simp] theorem store_resolved (name : String) (x : LookupAnswer) : (x.resolved name).2 = x.2 := by
  rcases x with ⟨e | _ | a, t⟩ <;> rfl

@[simp] theorem store_lookedUp (x : Answer) : x.lookedUp.2 = x.2 := by
  rcases x with ⟨e | a, t⟩
  · cases e <;> rfl
  · rfl

/-! ### One loader -/

/-- **A lookup is a resolution** in which what is not found is no error. -/
theorem find?_eq_lookedUp (l : Loader) (name : String) (s : Store) :
    (l.find? name).attempt s = Answer.lookedUp ((l.resolve name).attempt s) := by
  unfold Action.attempt find?
  cases l.resolve name s with
  | ok a t => rfl
  | error e t => cases e <;> rfl

/-- **A name that is not owned is resolved by a lookup of the parent.** -/
theorem resolve_eq_resolved (hname : l.artifact? name s = none) :
    (l.resolve name).attempt s = LookupAnswer.resolved name ((l.parent.find? name).attempt s) := by
  rw [resolve_of_unowned hname]
  rcases (l.parent.find? name).attempt s with ⟨e | _ | a, t⟩ <;> rfl

/-- An owned name is found, or its materializer says why not. -/
theorem resolve_ne_notFound (hm : l.materializer.NeverNotFound)
    (hname : (l.artifact? name s).isSome) (n : String) :
    ((l.resolve name).attempt s).1 ≠ .error (.artifactNotFound n) := by
  obtain ⟨r, hr⟩ := Option.isSome_iff_exists.1 hname
  rw [resolve_of_owned hr]
  rcases Store.materialize_cases l.materializer r s with
    ⟨a, -, hx⟩ | ⟨e, -, he, hx⟩ | ⟨a, -, -, hx⟩ <;> rw [hx]
  · simp
  · rintro ⟨⟩
    exact hm _ _ _ he
  · simp

/-! ### A chain of loaders -/

/-- A loader that owns a name is nearer to it than those behind it. -/
theorem nearest?_cons_of_owned (hname : (l.artifact? name s).isSome) (ls : List Loader) :
    nearest? (l :: ls) name s = some l :=
  List.find?_cons_of_pos hname

/-- A loader that does not own a name is passed over. -/
theorem nearest?_cons_of_unowned (hname : l.artifact? name s = none) (ls : List Loader) :
    nearest? (l :: ls) name s = nearest? ls name s :=
  List.find?_cons_of_neg (by simp [hname])

/-- The nearest owner of a name owns it. -/
theorem owned_of_nearest? (h : nearest? ls name s = some l') : (l'.artifact? name s).isSome := by
  have howned := List.find?_some h
  exact howned

/-- **Who answers a lookup in a chain:** the first loader that owns the name, and else the base. -/
theorem find?_over (hbase : base.NeverNotFound) (hh : base.Over ls h) (name : String) (s : Store) :
    (h.find? name).attempt s =
      match nearest? ls name s with
      | some l' => Answer.lookedUp ((l'.resolve name).attempt s)
      | none => (base.find? name).attempt s := by
  induction hh with
  | base => rfl
  | @loader l ls _ ih =>
    show (l.find? name).attempt s = _
    rw [find?_eq_lookedUp]
    cases hname : l.artifact? name s with
    | some r => rw [nearest?_cons_of_owned (Option.isSome_of_eq_some hname)]
    | none =>
      -- the answer from above does not say "not found" itself
      have habove : ∀ n, ((l.parent.find? name).attempt s).1 ≠ .error (.artifactNotFound n) := by
        rw [ih]
        cases nearest? ls name s with
        | some l' => exact lookedUp_ne_notFound _
        | none => exact hbase name s
      rw [nearest?_cons_of_unowned hname, resolve_eq_resolved hname, lookedUp_resolved habove, ih]

/-- **Who resolves a name in a chain:** the first loader that owns it, and else the base. -/
theorem resolve_over (hbase : base.NeverNotFound) (hl : base.Over ls l.parent)
    (hls : ∀ l' ∈ ls, l'.materializer.NeverNotFound) (name : String) (s : Store) :
    (l.resolve name).attempt s =
      match nearest? (l :: ls) name s with
      | some l' => (l'.resolve name).attempt s
      | none => LookupAnswer.resolved name ((base.find? name).attempt s) := by
  cases hname : l.artifact? name s with
  | some r => rw [nearest?_cons_of_owned (Option.isSome_of_eq_some hname)]
  | none =>
    rw [nearest?_cons_of_unowned hname, resolve_eq_resolved hname, find?_over hbase hl]
    cases hnear : nearest? ls name s with
    | none => rfl
    | some l' =>
      have hl' : l' ∈ ls := List.mem_of_find?_eq_some hnear
      exact resolved_lookedUp (resolve_ne_notFound (hls l' hl') (owned_of_nearest? hnear))

/-- To resolve a name that a loader owns changes no namespace. -/
theorem table_resolve_of_owned (hname : (l.artifact? name s).isSome) (l'' : Loader) :
    l''.table ((l.resolve name).attempt s).2 = l''.table s := by
  obtain ⟨r, hr⟩ := Option.isSome_iff_exists.1 hname
  rw [resolve_of_owned hr, table, table, Store.namespaces_materialize]

/-- **A chain of loaders over any base.**  A name is resolved by the first loader that owns it:
the handle or error is the one that this loader gives when it is asked itself, and the store
is left as it leaves it.  If no loader owns the name, the base's answer to a lookup decides,
and its store is what is left.

* A lookup does the same, and answers nothing where a resolution finds nothing; so if no loader
  owns the name, it answers what the base does.
* "Not found" is the answer exactly if no loader owns the name and the base has nothing for it,
  and it is said of this name.
* Neither changes what any loader owns, be it of this chain or not: of a base that is asked it is
  enough that its own answer does not, and that of a steady one never does. -/
theorem resolve_chain (hbase : base.NeverNotFound) (hl : base.Over ls l.parent)
    (hls : ∀ l' ∈ l :: ls, l'.materializer.NeverNotFound) (name : String) (s : Store) :
    let resolution : Answer := (l.resolve name).attempt s
    let lookup : LookupAnswer := (l.find? name).attempt s
    let below : LookupAnswer := (base.find? name).attempt s
    (∀ l', nearest? (l :: ls) name s = some l' → resolution = (l'.resolve name).attempt s) ∧
      (nearest? (l :: ls) name s = none → resolution = below.resolved name ∧ lookup = below) ∧
      lookup = resolution.lookedUp ∧
      (∀ n, resolution.1 = .error (.artifactNotFound n) ↔
        n = name ∧ nearest? (l :: ls) name s = none ∧ below.1 = .ok none) ∧
      ∀ l'' : Loader, (nearest? (l :: ls) name s = none → l''.table below.2 = l''.table s) →
        l''.table resolution.2 = l''.table s ∧ l''.table lookup.2 = l''.table s := by
  intro resolution lookup below
  have habove : ∀ l' ∈ ls, l'.materializer.NeverNotFound :=
    fun l' hl' => hls l' (List.mem_cons_of_mem _ hl')
  have hresolution := resolve_over hbase hl habove name s
  have hlookup : lookup = resolution.lookedUp := l.find?_eq_lookedUp name s
  change resolution = _ at hresolution
  cases hnear : nearest? (l :: ls) name s with
  | some l' =>
    have howned := owned_of_nearest? hnear
    have hfound := resolve_ne_notFound (hls l' (List.mem_of_find?_eq_some hnear)) howned
    simp only [hnear] at hresolution
    rw [hlookup, hresolution, store_lookedUp]
    refine ⟨?_, by simp, rfl, by simp [hfound], fun l'' _ => ?_⟩
    · rintro _ ⟨⟩
      rfl
    · exact ⟨table_resolve_of_owned howned l'', table_resolve_of_owned howned l''⟩
  | none =>
    simp only [hnear] at hresolution
    have hback : (below.resolved name).lookedUp = below := lookedUp_resolved (hbase name s)
    rw [hlookup, hresolution, hback]
    refine ⟨by simp, fun _ => ⟨rfl, rfl⟩, rfl, ?_, fun l'' hsame => ?_⟩
    · simpa using resolved_eq_notFound_iff (hbase name s)
    · rw [store_resolved]
      exact ⟨hsame rfl, hsame rfl⟩

/-- A class path without entries. -/
def bottom : ClassPath × Store := ClassPath.new [] defaultExtension (.image 0) Store.empty

/-- A loader over it. -/
def lower : Loader × Store := Loader.new bottom.1.toHost (.image 0) bottom.2

/-- A loader above that one, whose materializer fails once for `A`. -/
def middle : Loader × Store :=
  Loader.new lower.1.toHost (.failing 1 (Table.empty.insert "A" 1)) lower.2

/-- A loader above both. -/
def upper : Loader × Store := Loader.new middle.1.toHost (.image 0) middle.2

/-- The lower loader owns `A` and `B`, the middle one another `A`. -/
def stacked : Store :=
  let (a, s) := upper.2.newArtifact (.new "A" .compiled)
  let (b, s) := s.newArtifact (.new "B" .compiled)
  let (a', s) := s.newArtifact (.new "A" .html)
  let (_, s) := lower.1.register a s
  let (_, s) := lower.1.register b s
  (middle.1.register a' s).2

/-- **Three names seen from the top of that chain:** `A` fails as in the middle, `B` is the one
that the lower loader has, and `C` is not found. -/
theorem resolve_chain_stacked :
    (upper.1.resolve "A").attempt stacked = (middle.1.resolve "A").attempt stacked ∧
      ((upper.1.resolve "A").attempt stacked).1 = .error (.materialization "A" "scripted") ∧
      (upper.1.resolve "B").attempt stacked = (lower.1.resolve "B").attempt stacked ∧
      ((upper.1.resolve "B").attempt stacked).1 = .ok ⟨0⟩ ∧
      ((upper.1.resolve "C").attempt stacked).1 = .error (.artifactNotFound "C") ∧
      ((upper.1.find? "C").attempt stacked).1 = .ok none := by
  have hbase : bottom.1.toHost.NeverNotFound :=
    Host.neverNotFound_classPath (Materializer.neverNotFound_image 0)
  have hover : bottom.1.toHost.Over [middle.1, lower.1] upper.1.parent := .loader (.loader .base)
  have hall : ∀ l' ∈ [upper.1, middle.1, lower.1], l'.materializer.NeverNotFound := by
    simp only [List.forall_mem_cons]
    exact ⟨Materializer.neverNotFound_image 0, Materializer.neverNotFound_failing 1 _,
      Materializer.neverNotFound_image 0, by simp⟩
  have hchain := resolve_chain hbase hover hall
  obtain ⟨hA, -⟩ := hchain "A" stacked
  obtain ⟨hB, -⟩ := hchain "B" stacked
  obtain ⟨-, hC, -, hnotFound, -⟩ := hchain "C" stacked
  have hmiddle := hA middle.1 rfl
  have hlower := hB lower.1 rfl
  have hunowned : nearest? [upper.1, middle.1, lower.1] "C" stacked = none := rfl
  have hnothing : ((bottom.1.toHost.find? "C").attempt stacked).1 = .ok none := rfl
  refine ⟨hmiddle, ?_, hlower, ?_, (hnotFound "C").2 ⟨rfl, hunowned, hnothing⟩, ?_⟩
  · rw [hmiddle]
    rfl
  · rw [hlower]
    rfl
  · rw [(hC hunowned).2, hnothing]

end Loader
end LiveBuild
