/-
# Compiling in rounds

A toolchain compiles in rounds: the units it was given, then the sources that were asked for
meanwhile, then those asked for while these were compiled, until a round is empty.  `Loops` is
this loop as it is, with the rounds that there are.

The loop that runs has a limit on its rounds.  It does what `Loops` says as soon as the limit
is beyond the rounds that there are (`run_rounds_of_loops`).  Put one after the other, the
rounds are the units given and the units that the loop took (`flatten_of_loops`).
-/

import LiveBuild.Proofs.Toolchain.Calls
import LiveBuild.Proofs.Toolchain.Sequence

namespace LiveBuild
namespace Interaction

variable {α β : Type}

/-- It ends with a value, neither with an error nor with a panic. -/
def Finishes (m : FileManager) (x : Interaction α) (b : BuildState) : Prop :=
  ∃ a b', x.run m b = (.finished a, b')

variable {m : FileManager} {b b' : BuildState}

/-- A sequence that finishes finished its first part, and then its second one. -/
theorem finishes_of_bind {x : Interaction α} {f : α → Interaction β}
    (h : (x >>= f).Finishes m b) : ∃ a b', x.run m b = (.finished a, b') ∧ (f a).Finishes m b' := by
  obtain ⟨v, b₂, hrun⟩ := h
  change (x.bind f).run m b = _ at hrun
  rw [run_bind] at hrun
  rcases hx : x.run m b with ⟨⟨a⟩ | ⟨e⟩ | ⟨message⟩, b₁⟩
  · rw [hx] at hrun
    exact ⟨a, b₁, rfl, v, b₂, hrun⟩
  · rw [hx] at hrun
    cases hrun
  · rw [hx] at hrun
    cases hrun

/-- The state after the queue was taken. -/
def taken (m : FileManager) (b : BuildState) : BuildState := (b.answer m .takeGenerated).2

/-- What compiling in rounds comes to without a limit: the rounds that there are, whether all
of them answered yes, and the state in the end. -/
inductive Loops (m : FileManager) (round : List (Ref SourceUnit) → Interaction Bool) :
    List (Ref SourceUnit) → BuildState → List (List (Ref SourceUnit)) → Bool → BuildState → Prop
  | ended (b : BuildState) : Loops m round [] b [] true b
  | round {units : List (Ref SourceUnit)} {b b₁ b₂ : BuildState}
      {rest : List (List (Ref SourceUnit))} {ok allOk : Bool} (hne : units ≠ [])
      (hrun : (round units).run m b = (.finished ok, b₁))
      (hrest : Loops m round (m.asked b₁.store).queue (taken m b₁) rest allOk b₂) :
      Loops m round units b (units :: rest) (ok && allOk) b₂

variable {round : List (Ref SourceUnit) → Interaction Bool} {units : List (Ref SourceUnit)}
  {rs : List (List (Ref SourceUnit))} {ok : Bool}

/-- A round, and the rounds after it. -/
theorem rounds_of_ne_nil (round : List (Ref SourceUnit) → Interaction Bool) (limit : Nat)
    (hne : units ≠ []) :
    rounds round (limit + 2) units = (do
      let ok ← round units
      let next ← takeGenerated
      let rest ← rounds round (limit + 1) next
      return ok && rest) := by
  cases units with
  | nil => exact absurd rfl hne
  | cons u units => rfl

/-- **One round and then the others:** if the first round finishes, the rest goes on with what was
asked for in it. -/
theorem run_rounds_of_ne_nil (limit : Nat) (hne : units ≠ []) {b₁ : BuildState}
    (hrun : (round units).run m b = (.finished ok, b₁)) {allOk : Bool} {b₂ : BuildState}
    (hrest : (rounds round (limit + 1) (m.asked b₁.store).queue).run m (taken m b₁) =
      (.finished allOk, b₂)) :
    (rounds round (limit + 2) units).run m b = (.finished (ok && allOk), b₂) := by
  rw [rounds_of_ne_nil round limit hne, run_bind_of_finished hrun]
  have htake : takeGenerated.run m b₁ = (.finished (m.asked b₁.store).queue, taken m b₁) := rfl
  rw [run_bind_of_finished htake, run_bind_of_finished hrest]
  rfl

/-- The requests of the rounds are those of the first one, then the queue is taken, then those of
the others. -/
theorem transcript_rounds_of_ne_nil (limit : Nat) (hne : units ≠ []) {b₁ : BuildState}
    (hrun : (round units).run m b = (.finished ok, b₁)) {allOk : Bool} {b₂ : BuildState}
    (hrest : (rounds round (limit + 1) (m.asked b₁.store).queue).run m (taken m b₁) =
      (.finished allOk, b₂)) :
    (rounds round (limit + 2) units).transcript m b =
      (round units).transcript m b ++ (b₁, .takeGenerated) ::
        (rounds round (limit + 1) (m.asked b₁.store).queue).transcript m (taken m b₁) := by
  have htake : takeGenerated.run m b₁ = (.finished (m.asked b₁.store).queue, taken m b₁) := rfl
  rw [rounds_of_ne_nil round limit hne, transcript_bind_of_finished hrun,
    transcript_bind_of_finished htake, transcript_bind_of_finished hrest]
  exact congrArg _ (congrArg _ (List.append_nil _))

/-- The sources asked for in the rounds are those of the first one and then those of the others. -/
theorem sourceNames_rounds_of_ne_nil (limit : Nat) (hne : units ≠ []) {b₁ : BuildState}
    (hrun : (round units).run m b = (.finished ok, b₁))
    (hrest : (rounds round (limit + 1) (m.asked b₁.store).queue).Finishes m (taken m b₁)) :
    (rounds round (limit + 2) units).sourceNames m b =
      (round units).sourceNames m b ++
        (rounds round (limit + 1) (m.asked b₁.store).queue).sourceNames m (taken m b₁) := by
  obtain ⟨allOk, b₂, hrest⟩ := hrest
  rw [sourceNames, transcript_rounds_of_ne_nil limit hne hrun hrest, List.flatMap_append]
  rfl

/-- The units handed out in the rounds are those of the first one, then the queue, then those of the
others. -/
theorem handedOut_rounds_of_ne_nil (limit : Nat) (hne : units ≠ []) {b₁ : BuildState}
    (hrun : (round units).run m b = (.finished ok, b₁))
    (hrest : (rounds round (limit + 1) (m.asked b₁.store).queue).Finishes m (taken m b₁)) :
    (rounds round (limit + 2) units).handedOut m b =
      (round units).handedOut m b ++ ((m.asked b₁.store).queue ++
        (rounds round (limit + 1) (m.asked b₁.store).queue).handedOut m (taken m b₁)) := by
  obtain ⟨allOk, b₂, hrest⟩ := hrest
  rw [handedOut, transcript_rounds_of_ne_nil limit hne hrun hrest, List.flatMap_append]
  rfl

/-- **With a limit beyond the rounds there are,** the loop that runs does just these. -/
theorem run_rounds_of_loops (h : Loops m round units b rs ok b') {limit : Nat}
    (hlimit : rs.length < limit) : (rounds round limit units).run m b = (.finished ok, b') := by
  induction h generalizing limit with
  | ended b =>
    obtain ⟨limit, rfl⟩ := Nat.exists_eq_succ_of_ne_zero (Nat.ne_of_gt hlimit)
    rfl
  | round hne hrun _ ih =>
    rw [List.length_cons] at hlimit
    obtain ⟨limit, rfl⟩ := Nat.exists_eq_add_of_le' (show 2 ≤ limit by omega)
    exact run_rounds_of_ne_nil limit hne hrun (ih (by omega))

/-- The rounds are the units given and those that the loop took, unless what is done in a round
takes some itself. -/
theorem flatten_of_loops (h : Loops m round units b rs ok b') {limit : Nat}
    (hlimit : rs.length < limit) :
    rs.flatten.Sublist (units ++ (rounds round limit units).handedOut m b) ∧
      ((∀ units b, (round units).handedOut m b = []) →
        rs.flatten = units ++ (rounds round limit units).handedOut m b) := by
  induction h generalizing limit with
  | ended b =>
    obtain ⟨limit, rfl⟩ := Nat.exists_eq_succ_of_ne_zero (Nat.ne_of_gt hlimit)
    exact ⟨List.nil_sublist _, fun _ => rfl⟩
  | @round units b b₁ b₂ rest ok allOk hne hrun hloops ih =>
    rw [List.length_cons] at hlimit
    obtain ⟨limit, rfl⟩ := Nat.exists_eq_add_of_le' (show 2 ≤ limit by omega)
    have hrest : (rounds round (limit + 1) (m.asked b₁.store).queue).run m (taken m b₁) =
      (.finished allOk, b₂) := run_rounds_of_loops hloops (by omega)
    obtain ⟨hsub, heq⟩ := ih (show rest.length < limit + 1 by omega)
    rw [handedOut_rounds_of_ne_nil limit hne hrun ⟨allOk, b₂, hrest⟩, List.flatten_cons]
    constructor
    · exact (hsub.trans (List.sublist_append_right _ _)).append_left units
    · intro hquiet
      rw [heq hquiet, hquiet, List.nil_append]

/-- What finishes with every limit finishes with every limit after the first round. -/
theorem finishes_rest (hne : units ≠ []) (h : ∀ limit, (rounds round limit units).Finishes m b) :
    ∃ ok b₁, (round units).run m b = (.finished ok, b₁) ∧
      ∀ limit, (rounds round limit (m.asked b₁.store).queue).Finishes m (taken m b₁) := by
  obtain ⟨ok, b₁, hrun⟩ : (round units).Finishes m b := by
    obtain ⟨ok, b₁, hrun, -⟩ := finishes_of_bind (rounds_of_ne_nil round 0 hne ▸ h 2)
    exact ⟨ok, b₁, hrun⟩
  refine ⟨ok, b₁, hrun, fun limit => ?_⟩
  cases limit with
  | zero => exact ⟨true, taken m b₁, rfl⟩
  | succ limit =>
    obtain ⟨v, b₂, hwhole⟩ := h (limit + 2)
    have htake : takeGenerated.run m b₁ = (.finished (m.asked b₁.store).queue, taken m b₁) := rfl
    rw [rounds_of_ne_nil round limit hne, run_bind_of_finished hrun,
      run_bind_of_finished htake] at hwhole
    obtain ⟨allOk, b₃, hrest, -⟩ := finishes_of_bind ⟨v, b₂, hwhole⟩
    exact ⟨allOk, b₃, hrest⟩

/-- What is asked for in the first round and in the rounds after it, with any limit, is asked for
with some limit. -/
theorem exists_limit_of_rest (hne : units ≠ []) {b₁ : BuildState}
    (hrun : (round units).run m b = (.finished ok, b₁))
    (hrest : ∀ limit, (rounds round limit (m.asked b₁.store).queue).Finishes m (taken m b₁))
    (limit : Nat) :
    ∃ limit', ∀ name ∈ (round units).sourceNames m b ++
        (rounds round limit (m.asked b₁.store).queue).sourceNames m (taken m b₁),
      name ∈ (rounds round limit' units).sourceNames m b := by
  cases limit with
  | zero =>
    refine ⟨2, fun name hname => ?_⟩
    have hnothing : (rounds round 0 (m.asked b₁.store).queue).sourceNames m (taken m b₁) = [] := rfl
    rw [hnothing, List.append_nil] at hname
    rw [sourceNames_rounds_of_ne_nil 0 hne hrun (hrest 1)]
    exact List.mem_append_left _ hname
  | succ limit =>
    refine ⟨limit + 2, fun name hname => ?_⟩
    rwa [sourceNames_rounds_of_ne_nil limit hne hrun (hrest (limit + 1))]

/-- What is left in the queue when the rounds are over: nothing. -/
theorem queue_of_loops (h : Loops m round units b rs ok b')
    (hqueue : (m.asked b.store).queue = []) : (m.asked b'.store).queue = [] := by
  induction h with
  | ended b => exact hqueue
  | @round units b b₁ b₂ rest ok allOk hne hrun hloops ih =>
    have htaken : (m.asked (taken m b₁).store).queue = [] := by
      show (m.asked (m.takeGenerated b₁.store).2).queue = []
      rw [FileManager.asked_takeGenerated]
    exact ih htaken

/-! ### Steps that end -/

/-- A sequence of parts that always finish finishes. -/
theorem finishes_bind {x : Interaction α} {f : α → Interaction β} (hx : ∀ b, x.Finishes m b)
    (hf : ∀ a b, (f a).Finishes m b) (b : BuildState) : (x >>= f).Finishes m b := by
  obtain ⟨a, b₁, hrun⟩ := hx b
  obtain ⟨v, b₂, hrest⟩ := hf a b₁
  exact ⟨v, b₂, (run_bind_of_finished hrun f).trans hrest⟩

/-- Going through units finishes if every step does. -/
theorem finishes_every {step : Ref SourceUnit → Interaction Bool}
    (h : ∀ u b, (step u).Finishes m b) (units : List (Ref SourceUnit)) (b : BuildState) :
    (every step units).Finishes m b := by
  have heach : ∀ (units : List (Ref SourceUnit)) b, (each step units).Finishes m b := by
    intro units
    induction units with
    | nil => exact fun b => ⟨[], b, rfl⟩
    | cons u units ih =>
      exact finishes_bind (h u) fun _ => finishes_bind ih fun _ b => ⟨_, b, rfl⟩
  exact finishes_bind (heach units) (fun _ b => ⟨_, b, rfl⟩) b

/-- **Rounds of steps that end** end, with any limit. -/
theorem finishes_rounds (h : ∀ units b, (round units).Finishes m b) (limit : Nat)
    (units : List (Ref SourceUnit)) (b : BuildState) : (rounds round limit units).Finishes m b := by
  induction limit generalizing units b with
  | zero => exact ⟨true, b, rfl⟩
  | succ limit ih =>
    cases units with
    | nil => exact ⟨true, b, rfl⟩
    | cons u units =>
      cases limit with
      | zero => exact h (u :: units) b
      | succ limit =>
        have htake : ∀ b, takeGenerated.Finishes m b := fun b => ⟨_, _, rfl⟩
        exact finishes_bind (h (u :: units)) (fun _ => finishes_bind htake fun next =>
          finishes_bind (ih next) fun _ b => ⟨_, b, rfl⟩) b

/-- Rounds ask for nothing but what each round asks for, and for the queue. -/
theorem Only.rounds {P : Request → Prop} (htake : P .takeGenerated)
    (h : ∀ units, (round units).Only P) (limit : Nat) (units : List (Ref SourceUnit)) :
    (rounds round limit units).Only P := by
  induction limit generalizing units with
  | zero => trivial
  | succ limit ih =>
    cases units with
    | nil => trivial
    | cons u units =>
      cases limit with
      | zero => exact h (u :: units)
      | succ limit =>
        have hafter : takeGenerated.Only P := ⟨htake, fun _ => trivial⟩
        exact (h (u :: units)).bind fun _ => hafter.bind fun next => (ih next).bind fun _ => trivial

/-- The sources that an interaction asks for are among those that it may ask for. -/
theorem of_mem_sourceNames {P : String → Prop} {x : Interaction α}
    (h : x.Only fun r => ∀ name ∈ r.sourceNames, P name) {name : String}
    (hname : name ∈ x.sourceNames m b) : P name := by
  obtain ⟨t, ht, hmem⟩ := List.mem_flatMap.1 hname
  exact h.of_mem_transcript ht name hmem

/-- Where no request hands anything out, nothing is handed out. -/
theorem handedOut_of_only {x : Interaction α} (h : x.Only fun r => ∀ m s, r.handedOut m s = []) :
    x.handedOut m b = [] :=
  List.flatMap_eq_nil_iff.2 fun _ ht => h.of_mem_transcript ht m _

end Interaction
end LiveBuild
