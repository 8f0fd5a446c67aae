/-
# Interactions one after the other

An interaction that ends with a value can be followed by what comes next: in a sequence
(`run_bind_of_finished`), as an attempt (`run_attempt_of_finished`), and once for each item
of a list (`run_each`), where every item takes an invariant of the items before it one
further.
-/

import LiveBuild.Toolchain.Interaction

namespace LiveBuild
namespace Interaction

variable {α β : Type} {m : FileManager} {b b' : BuildState}

/-- Behind a part that finishes, the sequence goes on with its value. -/
theorem run_bind_of_finished {x : Interaction α} {a : α} (h : x.run m b = (.finished a, b'))
    (f : α → Interaction β) : (x >>= f).run m b = (f a).run m b' := by
  show (x.bind f).run m b = _
  rw [run_bind, h]

/-- An attempt at what finishes finishes with its value. -/
theorem run_attempt_of_finished {x : Interaction α} {a : α} (h : x.run m b = (.finished a, b')) :
    x.attempt.run m b = (.finished (.ok a), b') := by
  induction x generalizing b with
  | done v =>
    cases h
    rfl
  | fail e => cases h
  | panic message => cases h
  | ask r next ih => exact ih _ h

/-- An interaction that fails can be tried: its error is a value then. -/
theorem run_attempt_of_failed {x : Interaction α} {e : Error} (h : x.run m b = (.failed e, b')) :
    x.attempt.run m b = (.finished (.error e), b') := by
  induction x generalizing b with
  | done v => cases h
  | fail e' =>
    cases h
    rfl
  | panic message => cases h
  | ask r next ih => exact ih _ h

/-- **One interaction for each item,** all of which end with a value: what holds of the items
before, each item makes hold of itself too. -/
theorem run_each {f : α → Interaction β} {g : α → β} {P : List α → BuildState → Prop} {all : List α}
    (hstep : ∀ before a b, before ++ [a] <+: all → P before b →
      ∃ b', (f a).run m b = (.finished (g a), b') ∧ P (before ++ [a]) b')
    {before as : List α} (hall : before ++ as = all) (h : P before b) :
    ∃ b', (each f as).run m b = (.finished (as.map g), b') ∧ P all b' := by
  induction as generalizing before b with
  | nil =>
    rw [List.append_nil] at hall
    exact ⟨b, rfl, hall ▸ h⟩
  | cons a as ih =>
    have hinit : before ++ [a] ++ as = all := by
      rw [List.append_assoc]
      exact hall
    obtain ⟨b₁, hrun, h₁⟩ := hstep before a b ⟨as, hinit⟩ h
    obtain ⟨b₂, hrest, h₂⟩ := ih hinit h₁
    refine ⟨b₂, ?_, h₂⟩
    rw [each, run_bind_of_finished hrun, run_bind_of_finished hrest]
    rfl

end Interaction
end LiveBuild
