/-
# The transcript of an interaction

What an interaction did while it ran: every request it made, in order, each with the
state in which it was made.  An interaction is a tree, one branch for each answer; its
transcript is the path that the answers of one run take through it.

What all requests in a tree have in common (`Only`), those in a transcript have.  What every
request leaves true, a whole run leaves true (`run_induction`).  The
diagnostics of a build are those that its transcript reports, in that order and no
others (`reported_run`).
-/

import LiveBuild.Toolchain.Interaction

namespace LiveBuild

/-- The diagnostics that a request reports. -/
def Request.diagnostics : Request → List Diagnostic
  | .report diagnostics => diagnostics
  | _ => []

namespace BuildState

/-- What is reported grows by the diagnostics of the request. -/
theorem reported_answer (m : FileManager) (b : BuildState) (r : Request) :
    (b.answer m r).2.reported = b.reported ++ r.diagnostics := by
  cases r <;> simp [answer, attempt, Request.diagnostics]

end BuildState

namespace Interaction

variable {α β : Type}

/-- The requests that an interaction makes when it runs, each with the state in which it
makes it. -/
def transcript (m : FileManager) : Interaction α → BuildState → List (BuildState × Request)
  | .done _, _ => []
  | .fail _, _ => []
  | .panic _, _ => []
  | .ask r next, b => (b, r) :: (next (b.answer m r).1).transcript m (b.answer m r).2

/-- **The transcript of a sequence** is that of its first part, and then that of its second. -/
theorem transcript_bind_of_finished {m : FileManager} {x : Interaction α} {a : α} {b b' : BuildState}
    (h : x.run m b = (.finished a, b')) (f : α → Interaction β) :
    (x >>= f).transcript m b = x.transcript m b ++ (f a).transcript m b' := by
  show (x.bind f).transcript m b = _
  induction x generalizing b with
  | done v =>
    cases h
    rfl
  | fail e => cases h
  | panic message => cases h
  | ask r next ih => exact congrArg _ (ih _ h)

/-- Every request that an interaction may make, whatever the answers, meets a condition. -/
def Only (P : Request → Prop) : Interaction α → Prop
  | .done _ => True
  | .fail _ => True
  | .panic _ => True
  | .ask r next => P r ∧ ∀ x, (next x).Only P

namespace Only

variable {P : Request → Prop}

/-- A sequence asks for nothing but what its parts ask for. -/
theorem bind {x : Interaction α} {f : α → Interaction β} (hx : x.Only P) (hf : ∀ a, (f a).Only P) :
    (x >>= f).Only P := by
  show (x.bind f).Only P
  induction x with
  | done a => exact hf a
  | fail e => trivial
  | panic message => trivial
  | ask r next ih => exact ⟨hx.1, fun answer => ih answer (hx.2 answer)⟩

/-- An attempt asks for nothing but what it attempts. -/
theorem attempt {x : Interaction α} (hx : x.Only P) : x.attempt.Only P := by
  induction x with
  | done a => trivial
  | fail e => trivial
  | panic message => trivial
  | ask r next ih => exact ⟨hx.1, fun answer => ih answer (hx.2 answer)⟩

/-- Going through a list asks for nothing but what each step asks for. -/
theorem each {f : α → Interaction β} (hf : ∀ a, (f a).Only P) (as : List α) :
    (each f as).Only P := by
  induction as with
  | nil => trivial
  | cons a as ih => exact (hf a).bind fun _ => ih.bind fun _ => trivial

/-- So does going through a list for a verdict. -/
theorem every {f : α → Interaction Bool} (hf : ∀ a, (f a).Only P) (as : List α) :
    (every f as).Only P :=
  (each hf as).bind fun _ => trivial

/-- What an interaction really asks for it may ask for. -/
theorem of_mem_transcript {m : FileManager} {x : Interaction α} (hx : x.Only P) {b : BuildState}
    {t : BuildState × Request} (ht : t ∈ x.transcript m b) : P t.2 := by
  induction x generalizing b with
  | done a => cases ht
  | fail e => cases ht
  | panic message => cases ht
  | ask r next ih =>
    rw [transcript, List.mem_cons] at ht
    rcases ht with rfl | ht
    · exact hx.1
    · exact ih _ (hx.2 _) ht

end Only

/-- **What every request preserves, a run preserves.** -/
theorem run_induction {m : FileManager} {P : BuildState → Prop}
    (hstep : ∀ b r, P b → P (b.answer m r).2) (x : Interaction α) {b : BuildState} (hb : P b) :
    P (x.run m b).2 := by
  induction x generalizing b with
  | done a => exact hb
  | fail e => exact hb
  | panic message => exact hb
  | ask r next ih => exact ih _ (hstep b r hb)

/-- **What is reported is what the transcript reports,** in its order, after what was
reported before. -/
theorem reported_run (m : FileManager) (x : Interaction α) (b : BuildState) :
    (x.run m b).2.reported =
      b.reported ++ (x.transcript m b).flatMap fun t => t.2.diagnostics := by
  induction x generalizing b with
  | done a => simp [run, transcript]
  | fail e => simp [run, transcript]
  | panic message => simp [run, transcript]
  | ask r next ih =>
    rw [run, transcript, ih, BuildState.reported_answer, List.flatMap_cons, List.append_assoc]

end Interaction
end LiveBuild
