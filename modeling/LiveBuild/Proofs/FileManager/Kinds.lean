/-
# The kinds of sinks

A sink has the name that it was asked for under, and a source is never given where an artifact
was asked for.  Among artifacts it is the first request for a name that decides of which kind
its artifact is: every later request for the name is given the same artifact, whichever kind
it asks for (`kind_perform`, `kind_of_sink`).

So what is written through a sink stays with its kind exactly as long as all requests for its
name ask for one kind.  `written_through_other_kind` asks for documentation where compiled
code was asked for before.
-/

import LiveBuild.Proofs.FileManager.Call
import LiveBuild.StandardFiles.Directories

namespace LiveBuild
namespace FileManager

/-- The kind of artifact that a call asks for under a name, if it does. -/
def Call.outputKind? (name : String) : Call → Option Kind
  | .outputFor _ n kind _ => if n = name ∧ kind ≠ .source then some kind else none
  | .write .. | .takeGenerated | .finish => none

/-- The kind of the artifact that was given for a name, if there is one. -/
def kind? (m : FileManager) (name : String) (s : Store) : Option Kind :=
  ((m.asked s).artifacts.find? name).map fun a => (s.artifacts.get a).kind

variable {m : FileManager} {s t : Store}

/-- Kinds stay when no artifact is asked for and all objects keep their identities. -/
theorem kind?_of_keepsIdentities (h : m.Named s) (hst : s.KeepsIdentities t)
    (ha : (m.asked t).artifacts = (m.asked s).artifacts) (name : String) :
    m.kind? name t = m.kind? name s := by
  rw [kind?, kind?, ha]
  cases hf : (m.asked s).artifacts.find? name with
  | none => rfl
  | some a =>
    have hkind := (hst.artifact a (h.artifact name a hf).1).2.2
    exact congrArg some hkind

/-- A new output has the kind it was asked for, and every other name keeps its own. -/
theorem kind?_newOutput (h : m.Named s) {name : String} {kind : Kind} (hk : kind ≠ .source)
    (hnew : m.sink? name kind s = none) (n : String) :
    m.kind? n (m.newOutput name kind s) =
      (m.kind? n s).or (if name = n ∧ kind ≠ .source then some kind else none) := by
  rw [sink?, if_neg hk, Option.map_eq_none_iff] at hnew
  by_cases he : name = n
  · subst he
    have hget : (m.newOutput name kind s).artifacts.get (s.artifacts.alloc (.new name kind)).1 =
        .new name kind := Arena.get_alloc_self _ _
    rw [if_pos ⟨rfl, hk⟩, kind?, kind?, hnew, asked_newOutput, Table.find?_insert_self,
      Option.map_some, hget]
    rfl
  · rw [if_neg fun hboth => he hboth.1, Option.or_none, kind?, kind?, asked_newOutput,
      Table.find?_insert_of_ne _ _ he]
    cases hf : (m.asked s).artifacts.find? n with
    | none => rfl
    | some a =>
      have hkeep := (m.keepsIdentities_newOutput name kind s).artifact a (h.artifact n a hf).1
      exact congrArg some hkeep.2.2

/-- **The first request for a name decides of which kind its artifact is:** a call changes no
kind, and a new artifact is of the kind asked for. -/
theorem kind_perform (h : m.Named s) (c : Call) (n : String) :
    m.kind? n (c.perform m s) = (m.kind? n s).or (c.outputKind? n) := by
  cases c with
  | outputFor location name kind sibling =>
    rw [Call.perform, Call.outputKind?]
    rcases m.outputFor_cases location name kind sibling s with
      ⟨sink, hsink, hx⟩ | ⟨hk, -, hx⟩ | ⟨hk, hnew, hx⟩
    · -- what was given before has a kind already
      rw [hx]
      by_cases hboth : name = n ∧ kind ≠ .source
      · obtain ⟨rfl, hk⟩ := hboth
        rw [sink?, if_neg hk] at hsink
        obtain ⟨a, ha, -⟩ := Option.map_eq_some_iff.1 hsink
        rw [kind?, ha]
        rfl
      · rw [if_neg hboth, Option.or_none]
    · rw [hx, if_neg fun hboth => hboth.2 hk, Option.or_none]
      have ha : (m.asked (m.newSource name s)).artifacts = (m.asked s).artifacts := by
        rw [asked_newSource]
      exact kind?_of_keepsIdentities h (m.keepsIdentities_newSource name s) ha n
    · rw [hx]
      exact kind?_newOutput h hk hnew n
  | write sink bytes =>
    rw [Call.outputKind?, Option.or_none]
    have hasked := m.asked_write sink bytes s
    exact kind?_of_keepsIdentities h (.write sink bytes s) (congrArg Outputs.artifacts hasked) n
  | takeGenerated =>
    rw [Call.outputKind?, Option.or_none]
    have ha : (m.asked (m.takeGenerated s).2).artifacts = (m.asked s).artifacts := by
      rw [asked_takeGenerated]
    have hkeep : s.KeepsIdentities (m.takeGenerated s).2 := .of_eq rfl rfl
    exact kind?_of_keepsIdentities h hkeep ha n
  | finish =>
    rw [Call.outputKind?, Option.or_none]
    have hasked := m.asked_finish s
    exact kind?_of_keepsIdentities h (.finalizeAll s _) (congrArg Outputs.artifacts hasked) n

/-- **A name has the kind it was first asked for,** through all calls. -/
theorem kind_performAll (h : m.Named s) (calls : List Call) (n : String) :
    m.kind? n (m.perform s calls) =
      (m.kind? n s).or (calls.findSome? (Call.outputKind? n)) := by
  induction calls generalizing s with
  | nil => exact Option.or_none.symm
  | cons c calls ih =>
    have hrest := ih (h.perform c)
    rw [kind_perform h c n, Option.or_assoc] at hrest
    refine hrest.trans (congrArg _ ?_)
    rw [List.findSome?_cons]
    cases c.outputKind? n <;> rfl

/-- **What a sink is.**  After any calls, a request is given a sink of the name it asks for: a
source unit if it asks for a source, and else an artifact, whose kind is the one that the
first of all requests for an artifact of this name asked for.  Every later request for an
artifact of this name is given this artifact, so that what is written through any of these
sinks becomes part of it. -/
theorem kind_of_sink (standard : StandardFiles) (loader : Loader) (finder : Finder)
    (origin : Store) (calls : List Call) (location : Location) (name : String) (kind : Kind)
    (sibling : Option FileHandle) :
    let m := (FileManager.new standard loader finder origin).1
    let s := m.perform (FileManager.new standard loader finder origin).2 calls
    let answer := m.outputFor location name kind sibling s
    answer.1.name answer.2 = name ∧
      (kind = .source → ∃ u, answer.1 = .source u) ∧
      (kind ≠ .source → ∃ a, answer.1 = .artifact a ∧
        (calls ++ [Call.outputFor location name kind sibling]).findSome? (Call.outputKind? name) =
          some (answer.2.artifacts.get a).kind ∧
        ∀ later location' kind' sibling', kind' ≠ .source →
          (m.outputFor location' name kind' sibling' (m.perform answer.2 later)).1 = .artifact a ∧
          ((m.perform answer.2 later).artifacts.get a).kind = (answer.2.artifacts.get a).kind) := by
  intro m s answer
  have hstart : m.Named (FileManager.new standard loader finder origin).2 := .new ..
  have hs : m.Named s := hstart.performAll calls
  have hafter : m.Named answer.2 := hs.perform (.outputFor location name kind sibling)
  have hsink : m.sink? name kind answer.2 = some answer.1 := m.sink?_outputFor ..
  refine ⟨hafter.name_sink hsink, fun hk => ?_, fun hk => ?_⟩
  · rw [sink?, if_pos hk] at hsink
    obtain ⟨u, -, hu⟩ := Option.map_eq_some_iff.1 hsink
    exact ⟨u, hu.symm⟩
  · have hall : m.perform (FileManager.new standard loader finder origin).2
        (calls ++ [.outputFor location name kind sibling]) = answer.2 := m.perform_append _ _ _
    have hnone : m.kind? name (FileManager.new standard loader finder origin).2 = none := by
      rw [kind?, asked_new]
      rfl
    rw [sink?, if_neg hk] at hsink
    obtain ⟨a, ha, hanswer⟩ := Option.map_eq_some_iff.1 hsink
    refine ⟨a, hanswer.symm, ?_, fun later location' kind' sibling' hk' => ?_⟩
    · have hkind := kind_performAll hstart (calls ++ [.outputFor location name kind sibling]) name
      rw [hnone, Option.none_or, hall, kind?, ha] at hkind
      exact hkind.symm
    · have hlater := (m.extends_performAll answer.2 later).artifact name a ha
      have hgiven : m.sink? name kind' (m.perform answer.2 later) = some (.artifact a) := by
        rw [sink?, if_neg hk', hlater]
        rfl
      rw [outputFor_of_sink? hgiven]
      have hkeep := (m.keepsIdentities_performAll answer.2 later).artifact a (hafter.artifact name a ha).1
      exact ⟨rfl, hkeep.2.2⟩

/-- A file manager over nothing. -/
def bare : FileManager × Store :=
  let (loader, s) := Loader.new Host.empty (.image 0) Store.empty
  FileManager.new Directories.none.toStandardFiles loader ⟨Host.empty, defaultExtension⟩ s

/-- **Documentation that is asked for under the name of compiled code** is written into the
compiled code. -/
theorem written_through_other_kind :
    let compiled := bare.1.outputFor .classOutput "A" .compiled none bare.2
    let html := bare.1.outputFor .classOutput "A" .html none compiled.2
    compiled.1 = .artifact ⟨0⟩ ∧ html.1 = .artifact ⟨0⟩ ∧
      (html.2.artifacts.get ⟨0⟩).kind = .compiled ∧
      (((html.1.write [60]).attempt html.2).2.artifacts.get ⟨0⟩).bytes = [60] :=
  ⟨rfl, rfl, rfl, rfl⟩

end FileManager
end LiveBuild
