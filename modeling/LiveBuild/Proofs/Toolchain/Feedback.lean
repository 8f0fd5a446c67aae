/-
# The feedback of generated sources ends

When a toolchain compiles in rounds, the work grows while it is done, and nothing in the loop
gets smaller.  What gets smaller is the number of names under which no source was asked for
yet.  A name that was asked for before gives no new unit, so every round but the first is made
of names that are new: if all names come from a set of `n`, there are at most `n + 1` rounds
(`loops_of_delivered`).  A step that asks for its own unit, or units that ask for each other,
make no difference.  `rounds_end` adds which units the rounds are made of.

The compiler itself asks for no sources, so for it two rounds are as good as any number
(`Rustc.run_compile_of_loops`).
-/

import LiveBuild.Proofs.Toolchain.Rounds
import LiveBuild.StandardFiles.Directories
import LiveBuild.Toolchain.Rustc
import Mathlib.Data.Finset.Card

namespace LiveBuild

/-- **There are no more units than names.** -/
theorem FileManager.Delivered.length_units_le {m : FileManager} {names : List String} {handed : List (Ref SourceUnit)} {s : Store}
    (h : m.Delivered names handed s) {N : Finset String} (hN : ∀ name ∈ names, name ∈ N) :
    (handed ++ (m.asked s).queue).length ≤ N.card := by
  have hlength := congrArg List.length h.names_units
  rw [List.length_map] at hlength
  rw [hlength, ← List.toFinset_card_of_nodup h.nodup_names]
  refine Finset.card_le_card fun name hname => hN name ?_
  rwa [List.mem_toFinset, List.mem_eraseDups] at hname

namespace Interaction

variable {α : Type} {m : FileManager} {b b' : BuildState}
  {round : List (Ref SourceUnit) → Interaction Bool} {units : List (Ref SourceUnit)}

/-- **Rounds come to an end:** there is one for the units given, and at most one for each name
under which nothing was asked for yet. -/
theorem loops_of_delivered (hparent : m.loader.parent.Discreet) {N : Finset String} (n : Nat)
    {names : List String} {handed : List (Ref SourceUnit)} (h : m.Delivered names handed b.store)
    (hfinishes : ∀ limit, (rounds round limit units).Finishes m b)
    (hnames : ∀ limit, ∀ name ∈ names ++ (rounds round limit units).sourceNames m b, name ∈ N)
    (hroom : N.card < handed.length + n) :
    ∃ rs ok b', Loops m round units b rs ok b' ∧ rs.length ≤ n := by
  -- the induction is on the rounds that there is room for
  induction n generalizing names handed units b with
  | zero =>
    have hN : ∀ name ∈ names, name ∈ N := fun name hname =>
      hnames 0 name (List.mem_append_left _ hname)
    have hle := h.length_units_le hN
    rw [List.length_append] at hle
    omega
  | succ n ih =>
    by_cases hne : units = []
    · subst hne
      exact ⟨[], true, b, .ended b, Nat.zero_le _⟩
    · obtain ⟨ok, b₁, hrun, hrest⟩ := finishes_rest hne hfinishes
      have hround : m.Delivered (names ++ (round units).sourceNames m b)
          (handed ++ (round units).handedOut m b) b₁.store := by
        have hwhole := h.run hparent (round units)
        rwa [hrun] at hwhole
      by_cases hempty : (m.asked b₁.store).queue = []
      · refine ⟨[units], ok && true, taken m b₁, .round hne hrun ?_, by simp⟩
        rw [hempty]
        exact .ended _
      · -- a round that is not empty uses up at least one name
        have hpos : 0 < (m.asked b₁.store).queue.length := List.length_pos_iff.2 hempty
        have hnames' : ∀ limit, ∀ name ∈ names ++ (round units).sourceNames m b ++
            (rounds round limit (m.asked b₁.store).queue).sourceNames m (taken m b₁), name ∈ N := by
          intro limit name hname
          obtain ⟨limit', hlimit⟩ := exists_limit_of_rest hne hrun hrest limit
          rw [List.append_assoc, List.mem_append] at hname
          exact hnames limit' name (List.mem_append.2 (hname.imp_right (hlimit name)))
        have hroom' : N.card < (handed ++ (round units).handedOut m b ++
            (m.asked b₁.store).queue).length + n := by
          rw [List.length_append, List.length_append]
          omega
        obtain ⟨rs, allOk, b', hloops, hlength⟩ :=
          ih hround.takeGenerated hrest hnames' hroom'
        exact ⟨units :: rs, ok && allOk, b', .round hne hrun hloops, Nat.succ_le_succ hlength⟩

/-- **Compiling in rounds ends, and every generated source is compiled once.**  Let nothing that
is done in the rounds fail, however many of them are run, and let all sources that are asked
for have names of a finite set.  Then there is at most one round more than there are names in
this set.  The rounds, one after the other, are the units given and then one new unit for each
name of a source that was asked for, in the order of the first requests.

What is done in a round is arbitrary: a step for each unit, or all of them at once, which may
ask for sources of any names, its own among them.  Only if it takes units from the queue
itself, these are missing in the rounds. -/
theorem rounds_end (standard : StandardFiles) {loader : Loader}
    (hparent : loader.parent.Discreet) (finder : Finder) (origin : Store)
    (reported : List Diagnostic) (round : List (Ref SourceUnit) → Interaction Bool)
    (units : List (Ref SourceUnit)) (N : Finset String) :
    let m := (FileManager.new standard loader finder origin).1
    let start : BuildState := ⟨(FileManager.new standard loader finder origin).2, reported⟩
    (∀ limit, (rounds round limit units).Finishes m start) →
    (∀ limit, ∀ name ∈ (rounds round limit units).sourceNames m start, name ∈ N) →
      ∃ rs ok b, Loops m round units start rs ok b ∧
        rs.length ≤ N.card + 1 ∧
        (∀ limit > N.card + 1,
          (rounds round limit units).run m start = (.finished ok, b) ∧
          (m.generated b.store).map (fun u => (b.store.units.get u).name) =
            ((rounds round limit units).sourceNames m start).eraseDups) ∧
        (m.generated b.store).Nodup ∧
        (∀ u ∈ m.generated b.store, ¬ origin.units.Live u) ∧
        rs.flatten.Sublist (units ++ m.generated b.store) ∧
        ((∀ units b, (round units).handedOut m b = []) →
          rs.flatten = units ++ m.generated b.store) := by
  intro m start hfinishes hnames
  have hnew : m.Delivered [] [] start.store := .new standard loader finder origin
  have hstart : (m.asked start.store).queue = [] := by
    rw [FileManager.asked_new]
    rfl
  obtain ⟨rs, ok, b, hloops, hlength⟩ :=
    loops_of_delivered hparent (N.card + 1) hnew hfinishes hnames (by simp)
  have hend := queue_of_loops hloops hstart
  have hrun : ∀ limit > N.card + 1, (rounds round limit units).run m start = (.finished ok, b) :=
    fun limit hlimit => run_rounds_of_loops hloops (by omega)
  have hafter : ∀ limit > N.card + 1,
      m.Delivered ((rounds round limit units).sourceNames m start)
        ((rounds round limit units).handedOut m start) b.store := by
    intro limit hlimit
    have hwhole := hnew.run hparent (rounds round limit units)
    rwa [hrun limit hlimit] at hwhole
  have hgenerated : ∀ limit > N.card + 1,
      (rounds round limit units).handedOut m start = m.generated b.store := by
    intro limit hlimit
    have hvalues := (hafter limit hlimit).values
    rwa [hend, List.append_nil] at hvalues
  -- what does not mention a limit is known from any that is large enough
  have hnext : N.card + 2 > N.card + 1 := Nat.lt_succ_self _
  have hadded : m.Added origin b.store := by
    have hwhole := (FileManager.Added.new standard loader finder origin).run (b := start) hparent
      (rounds round (N.card + 2) units)
    rwa [hrun _ hnext] at hwhole
  obtain ⟨hsub, hflatten⟩ := flatten_of_loops hloops (show rs.length < N.card + 2 by omega)
  rw [hgenerated _ hnext] at hsub hflatten
  refine ⟨rs, ok, b, hloops, hlength, fun limit hlimit => ⟨hrun limit hlimit, ?_⟩, ?_, ?_, hsub,
    hflatten⟩
  · have hunits := (hafter limit hlimit).names_units
    rwa [hend, List.append_nil, hgenerated limit hlimit] at hunits
  · have hunits := (hafter _ hnext).nodup_units
    rwa [hend, List.append_nil, hgenerated _ hnext] at hunits
  · intro u hu
    obtain ⟨e, he, rfl⟩ := List.mem_map.1 hu
    exact hadded.source e.1 e.2 ((Table.find?_eq_some_iff _ _ _).2 he)

/-- A step that asks for the sources A and B, whatever it compiles. -/
def askForBoth (_ : Ref SourceUnit) : Interaction Bool := do
  let _ ← outputFor .sourceOutput "A" .source none
  let _ ← outputFor .sourceOutput "B" .source none
  return true

/-- A loader over nothing, and a store with one unit, A. -/
def loneUnit : Loader × Store :=
  Loader.new Host.empty (.image 0) (Store.empty.newUnit ⟨"A", some "both"⟩).2

/-- Two units that ask for each other and for themselves are compiled once each, besides the
unit given. -/
theorem rounds_end_askForBoth :
    let files := FileManager.new Directories.none.toStandardFiles loneUnit.1
      ⟨Host.empty, defaultExtension⟩ loneUnit.2
    let start : BuildState := ⟨files.2, []⟩
    ∃ rs ok b, Loops files.1 (every askForBoth) [⟨0⟩] start rs ok b ∧ rs.length ≤ 3 ∧
      rs.flatten = ⟨0⟩ :: files.1.generated b.store ∧
      (files.1.generated b.store).map (fun u => (b.store.units.get u).name) = ["A", "B"] := by
  intro files start
  have hfinishes : ∀ units b, (every askForBoth units).Finishes files.1 b :=
    finishes_every fun _ b => ⟨_, _, rfl⟩
  have hnames : ∀ units : List (Ref SourceUnit), (every askForBoth units).Only
      fun r => ∀ name ∈ r.sourceNames, name ∈ ({"A", "B"} : Finset String) :=
    Only.every fun _ => ⟨by decide, fun _ => ⟨by decide, fun _ => trivial⟩⟩
  have hquiet : ∀ units : List (Ref SourceUnit), (every askForBoth units).Only
      fun r => ∀ m s, r.handedOut m s = [] :=
    Only.every fun _ => ⟨fun _ _ => rfl, fun _ => ⟨fun _ _ => rfl, fun _ => trivial⟩⟩
  obtain ⟨rs, ok, b, hloops, hlength, hlimit, -, -, -, hflatten⟩ :=
    rounds_end Directories.none.toStandardFiles (Host.keeps_empty Store.SparesOutputs.bearsLoading) ⟨Host.empty, defaultExtension⟩
      loneUnit.2 [] (every askForBoth) [⟨0⟩] {"A", "B"}
      (fun limit => finishes_rounds hfinishes limit [⟨0⟩] start)
      (fun limit _ => of_mem_sourceNames (Only.rounds (by decide) hnames limit [⟨0⟩]))
  refine ⟨rs, ok, b, hloops, hlength, hflatten fun units b => handedOut_of_only (hquiet units), ?_⟩
  exact (hlimit 4 (by decide)).2.trans (by decide +kernel)

/-- A run that asks for no source and takes nothing leaves an empty queue empty. -/
theorem queue_of_quiet_run (hparent : m.loader.parent.Discreet) {names : List String}
    {handed : List (Ref SourceUnit)} (h : m.Delivered names handed b.store)
    (hqueue : (m.asked b.store).queue = []) {x : Interaction α} (hnames : x.sourceNames m b = [])
    (hhanded : x.handedOut m b = []) : (m.asked (x.run m b).2.store).queue = [] := by
  have hbefore := congrArg List.length h.names_units
  have hafter := congrArg List.length (h.run hparent x).names_units
  rw [hnames, hhanded, List.append_nil, List.append_nil, ← hbefore, hqueue, List.append_nil,
    List.length_map, List.length_map, List.length_append] at hafter
  exact List.length_eq_zero_iff.1 (by omega)

end Interaction

namespace Rustc

open Interaction

variable {m : FileManager} {b b' : BuildState}

/-- A request for something else than a source, and not for the queue. -/
def Quiet (q : Request) : Prop := q.sourceNames = [] ∧ ∀ m s, q.handedOut m s = []

/-- To compile a unit asks for no source and takes none. -/
theorem only_compileUnit (r : Rustc) (options : List String) (unit : Ref SourceUnit) :
    (r.compileUnit options unit).Only Quiet := by
  refine ⟨⟨rfl, fun _ _ => rfl⟩, fun u => ?_⟩
  obtain ⟨name, content⟩ := u
  cases content with
  | none => exact ⟨⟨rfl, fun _ _ => rfl⟩, fun _ => trivial⟩
  | some text =>
    refine ⟨⟨rfl, fun _ _ => rfl⟩, fun answer => ?_⟩
    cases answer with
    | error e => trivial
    | ok output =>
      refine ⟨⟨rfl, fun _ _ => rfl⟩, fun _ => ?_⟩
      show Interaction.Only _ (if output.status.isSuccess = true then _ else _)
      split
      · have hwrite : ∀ sink, (Interaction.write sink output.stdout).Only Quiet := by
          refine fun sink => ⟨⟨rfl, fun _ _ => rfl⟩, fun answer => ?_⟩
          cases answer <;> trivial
        exact ⟨⟨rfl, fun _ _ => rfl⟩, fun sink => (hwrite sink).bind fun _ => trivial⟩
      · split
        · exact ⟨⟨rfl, fun _ _ => rfl⟩, fun _ => trivial⟩
        · trivial

/-- A round of the compiler asks for no source and takes none. -/
theorem only_round (r : Rustc) (options : List String) (units : List (Ref SourceUnit)) :
    (r.round options units).Only Quiet := by
  have hverdict : ∀ answers, (verdict answers).Only Quiet := by
    intro answers
    induction answers with
    | nil => trivial
    | cons answer rest ih =>
      cases answer with
      | error e => trivial
      | ok ok => exact ih.bind fun _ => trivial
  exact (Only.each (fun unit => (r.only_compileUnit options unit).attempt) units).bind hverdict

/-- **Two rounds are all there can be:** what the compiler comes to in rounds without a limit,
it comes to as a toolchain. -/
theorem run_compile_of_loops (hparent : m.loader.parent.Discreet) {names : List String}
    {handed : List (Ref SourceUnit)} (h : m.Delivered names handed b.store)
    (hqueue : (m.asked b.store).queue = []) {r : Rustc} {options : List String}
    {units : List (Ref SourceUnit)} {rs : List (List (Ref SourceUnit))} {ok : Bool}
    (hloops : Loops m (r.round options) units b rs ok b') :
    (r.toolchain.compile units options).run m b = (.finished ok, b') := by
  have hlength : rs.length < 2 := by
    cases hloops with
    | ended => exact Nat.zero_lt_two
    | @round _ _ b₁ _ _ _ _ hne hrun hrest =>
      have hquiet := r.only_round options units
      have hnames : (r.round options units).sourceNames m b = [] :=
        List.flatMap_eq_nil_iff.2 fun _ ht => (hquiet.of_mem_transcript ht).1
      have hhanded : (r.round options units).handedOut m b = [] :=
        List.flatMap_eq_nil_iff.2 fun _ ht => (hquiet.of_mem_transcript ht).2 m _
      have hempty := queue_of_quiet_run hparent h hqueue hnames hhanded
      rw [hrun] at hempty
      rw [hempty] at hrest
      cases hrest with
      | ended => exact Nat.one_lt_two
      | round hne => exact absurd rfl hne
  exact run_rounds_of_loops hloops hlength

end Rustc
end LiveBuild
