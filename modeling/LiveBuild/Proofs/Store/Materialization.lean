/-
# What materializing an artifact does to a store

Three things can happen, and nothing else:

| artifact | materializer | answer | store |
| --- | --- | --- | --- |
| was made before | not called | what was made | as it was |
| not yet | refuses | its error | one more attempt |
| not yet | makes something | a new loaded artifact | one more attempt, and the artifact remembers what was made of it |
-/

import LiveBuild.Materializer

namespace LiveBuild
namespace Store

/-- What a materializer is given when an artifact is materialized. -/
def callFor (r : Ref Artifact) (s : Store) : MaterializerCall :=
  ⟨(s.artifacts.get r).name, (s.artifacts.get r).kind, (s.artifacts.get r).bytes⟩

/-- The store with one more call of a materializer in its records. -/
def tried (m : Materializer) (r : Ref Artifact) (succeeded : Bool) (s : Store) : Store :=
  { s with attempts := s.attempts ++ [⟨m.id, s.callFor r, succeeded⟩] }

/-- The store in which something was made of an artifact. -/
def made (m : Materializer) (r : Ref Artifact) (l : LoadedArtifact) (s : Store) : Store :=
  { s.tried m r true with
    loaded := (s.loaded.alloc l).2
    artifacts := s.artifacts.modify r fun a => { a with loaded := some (s.loaded.alloc l).1 } }

/-- What was made of an artifact is answered again, and nothing happens. -/
theorem materialize_of_loaded (m : Materializer) {r : Ref Artifact} {s : Store}
    {h : Ref LoadedArtifact} (hr : (s.artifacts.get r).loaded = some h) :
    (materialize m r).attempt s = (.ok h, s) := by
  simp [Action.attempt, materialize, hr]

/-- What the materializer refuses is answered with its error, and the call is written down. -/
theorem materialize_of_refused {m : Materializer} {r : Ref Artifact} {s : Store} {e : Error}
    (hr : (s.artifacts.get r).loaded = none) (hm : m.answer (m.callsIn s) (s.callFor r) = .error e) :
    (materialize m r).attempt s = (.error e, s.tried m r false) := by
  rw [callFor] at hm
  simp [Action.attempt, materialize, hr, Materializer.load, Materializer.run, hm, tried, callFor]

/-- What the materializer makes of an artifact is loaded, remembered with it and answered. -/
theorem materialize_of_made {m : Materializer} {r : Ref Artifact} {s : Store} {l : LoadedArtifact}
    (hr : (s.artifacts.get r).loaded = none) (hm : m.answer (m.callsIn s) (s.callFor r) = .ok l) :
    (materialize m r).attempt s = (.ok (s.loaded.alloc l).1, s.made m r l) := by
  rw [callFor] at hm
  simp [Action.attempt, materialize, hr, Materializer.load, Materializer.run, hm, made, tried,
    callFor, newLoaded]

/-- **Three things can happen when an artifact is materialized.** -/
theorem materialize_cases (m : Materializer) (r : Ref Artifact) (s : Store) :
    (∃ h, (s.artifacts.get r).loaded = some h ∧ (materialize m r).attempt s = (.ok h, s)) ∨
      (∃ e, (s.artifacts.get r).loaded = none ∧ m.answer (m.callsIn s) (s.callFor r) = .error e ∧
        (materialize m r).attempt s = (.error e, s.tried m r false)) ∨
      ∃ l, (s.artifacts.get r).loaded = none ∧ m.answer (m.callsIn s) (s.callFor r) = .ok l ∧
        (materialize m r).attempt s = (.ok (s.loaded.alloc l).1, s.made m r l) := by
  cases hr : (s.artifacts.get r).loaded with
  | some h => exact .inl ⟨h, rfl, materialize_of_loaded m hr⟩
  | none =>
    cases hm : m.answer (m.callsIn s) (s.callFor r) with
    | error e => exact .inr (.inl ⟨e, rfl, rfl, materialize_of_refused hr hm⟩)
    | ok l => exact .inr (.inr ⟨l, rfl, rfl, materialize_of_made hr hm⟩)

/-- **What a materialization changes:** artifacts, what is loaded, and the records of calls. -/
theorem store_materialize (m : Materializer) (r : Ref Artifact) (s : Store) :
    ∃ artifacts loaded attempts,
      ((materialize m r).attempt s).2 = { s with artifacts, loaded, attempts } := by
  rcases materialize_cases m r s with ⟨h, -, hx⟩ | ⟨e, -, -, hx⟩ | ⟨l, -, -, hx⟩ <;> rw [hx]
  · exact ⟨s.artifacts, s.loaded, s.attempts, rfl⟩
  · exact ⟨s.artifacts, s.loaded, _, rfl⟩
  · exact ⟨_, _, _, rfl⟩

/-- Materializing an artifact changes no namespace. -/
theorem namespaces_materialize (m : Materializer) (r : Ref Artifact) (s : Store) :
    ((materialize m r).attempt s).2.namespaces = s.namespaces := by
  obtain ⟨artifacts, loaded, attempts, hx⟩ := store_materialize m r s
  rw [hx]

/-- A materialization leaves all other artifacts as they are. -/
theorem get_materialize_of_ne (m : Materializer) {r r' : Ref Artifact} (h : r ≠ r') (s : Store) :
    ((materialize m r).attempt s).2.artifacts.get r' = s.artifacts.get r' := by
  rcases materialize_cases m r s with ⟨a, -, hx⟩ | ⟨e, -, -, hx⟩ | ⟨l, -, -, hx⟩ <;> rw [hx]
  · rfl
  · exact Arena.get_modify_of_ne _ _ h

/-- **An artifact keeps what was made of it.** -/
theorem loaded_of_materialize {m : Materializer} {r : Ref Artifact} {s t : Store}
    {h : Ref LoadedArtifact} (hx : (materialize m r).attempt s = (.ok h, t)) :
    (t.artifacts.get r).loaded = some h := by
  rcases materialize_cases m r s with ⟨a, ha, hx'⟩ | ⟨e, -, -, hx'⟩ | ⟨a, -, -, hx'⟩
  · rw [hx] at hx'
    cases hx'
    exact ha
  · rw [hx] at hx'
    cases hx'
  · rw [hx] at hx'
    cases hx'
    exact congrArg Artifact.loaded (Arena.get_modify_self _ _ _)

end Store
end LiveBuild
