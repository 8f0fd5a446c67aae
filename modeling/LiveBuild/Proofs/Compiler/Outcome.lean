/-
# How a build ends

A build is told by three things: how its toolchain ended (`ending`), what was reported
while it worked (`told`, read off the transcript of its requests), and what trying every
artifact that the loader then owns comes to (`trials`).  `outcome_buildIn` puts them
together; `build_outcome` says what a caller can rely on:

* the build succeeds exactly if the toolchain ended with a verdict, whichever it was, no
  diagnostic of this build is worse than a warning, and every owned artifact materializes;
* every failure is one kind of error, and it holds all diagnostics of this build and no
  others, errors and warnings each in their order;
* it has no cause exactly if the toolchain ended with a verdict and an error was
  reported, and else its cause is what the toolchain or a materializer broke down with.

The loader may own artifacts of earlier builds, also of failed ones: the trials are over
whatever it owns when the toolchain is done.
-/

import LiveBuild.Compiler
import LiveBuild.Proofs.Loader.Trials
import LiveBuild.Proofs.Toolchain.Transcript

namespace LiveBuild
namespace Compiler

/-- The file manager that a build gives to its toolchain. -/
def files (c : Compiler) (s : Store) : FileManager :=
  (FileManager.new c.standard c.loader c.finder s).1

/-- The state in which the toolchain of a build begins: nothing is reported yet. -/
def opening (c : Compiler) (s : Store) : BuildState :=
  ⟨(FileManager.new c.standard c.loader c.finder s).2, []⟩

/-- All that the toolchain does in a build. -/
def work (c : Compiler) : Interaction Bool := c.toolchain.compile c.queued c.options.effective

/-- How the toolchain of a build ends. -/
def ending (c : Compiler) (s : Store) : Outcome Bool := (c.work.run (c.files s) (c.opening s)).1

/-- The state in which the toolchain of a build ends. -/
def closing (c : Compiler) (s : Store) : BuildState := (c.work.run (c.files s) (c.opening s)).2

/-- The diagnostics that the toolchain reports in a build, one request after the other. -/
def told (c : Compiler) (s : Store) : List Diagnostic :=
  (c.work.transcript (c.files s) (c.opening s)).flatMap fun t => t.2.diagnostics

/-- The store when everything asked for is finished and materializing begins. -/
def settled (c : Compiler) (s : Store) : Store :=
  ((c.files s).takeGenerated ((c.files s).finish (c.closing s).store)).2

/-- What a build comes to that let its toolchain do `work`: the work is done with the file manager
of the build, what it asked for is finished, and the rest is concluded from how it ended and what
was reported. -/
def buildBy (c : Compiler) (o : VisitOrder) (s : Store) (work : Interaction Bool) : BuildResult :=
  let (outcome, b) := work.run (c.files s) (c.opening s)
  let (_, settled) := (c.files s).takeGenerated ((c.files s).finish b.store)
  let (result, t) := (c.conclude o outcome b.reported).attempt settled
  ⟨result, { c with queued := [] }, t⟩

/-- What trying every artifact that the loader owns after the toolchain is done comes to. -/
def trials (c : Compiler) (o : VisitOrder) (s : Store) :
    List (String × Except Error (Ref LoadedArtifact)) :=
  c.loader.trials (o.names (c.loader.table (c.settled s))) (c.settled s)

/-- What a build breaks down with, if no diagnostic decides it. -/
def BreaksDown (c : Compiler) (o : VisitOrder) (s : Store) (cause : Error) : Prop :=
  match c.ending s with
  | .failed e => cause = e
  | .panicked message => cause = .toolchain (.panicked c.toolchain.name message)
  | .finished _ => ∃ (built : List (String × Ref LoadedArtifact)) (n : String) (after : _),
      c.trials o s = built.map success ++ (n, .error cause) :: after

/-- What is reported at the end of a build is what its requests report, one after the other. -/
theorem reported_closing (c : Compiler) (s : Store) : (c.closing s).reported = c.told s := by
  rw [closing, Interaction.reported_run, told]
  rfl

/-- **A build lets its toolchain compile the queue,** with the options of the compiler. -/
theorem buildIn_eq_buildBy (c : Compiler) (o : VisitOrder) (s : Store) :
    c.buildIn o s = c.buildBy o s (c.toolchain.compile c.queued c.options.effective) := rfl

/-- A build is the conclusion from what its toolchain did. -/
theorem buildIn_eq (c : Compiler) (o : VisitOrder) (s : Store) :
    c.buildIn o s =
      ⟨((c.conclude o (c.ending s) (c.told s)).attempt (c.settled s)).1, { c with queued := [] },
        ((c.conclude o (c.ending s) (c.told s)).attempt (c.settled s)).2⟩ := by
  rw [← reported_closing]
  rfl

/-- What a build comes to when its toolchain ended with a verdict, from the trials of the loader. -/
theorem conclude_finished (c : Compiler) (o : VisitOrder) (verdict : Bool) (ds : List Diagnostic)
    (s : Store) :
    ((c.conclude o (.finished verdict) ds).attempt s).1 =
      if (Classified.ofDiagnostics ds).hasErrors then
        .error (.compilation (.diagnosed (Classified.ofDiagnostics ds)))
      else
        match collect (c.loader.trials (o.names (c.loader.table s)) s) with
        | .ok built => .ok built
        | .error cause => .error (.compilation (.broken cause (Classified.ofDiagnostics ds))) := by
  rw [← Loader.materializeAll_eq_collect]
  unfold Action.attempt conclude Loader.allMaterializedIn
  by_cases h : (Classified.ofDiagnostics ds).hasErrors
  · simp only [h, if_true]
  · simp only [h, if_false, Bool.false_eq_true]
    cases c.loader.materializeAll (o.names (c.loader.table s)) s <;> rfl

/-- **How a build ends,** from how the toolchain ended, what was reported and the trials. -/
theorem outcome_buildIn (c : Compiler) (o : VisitOrder) (s : Store) :
    (c.buildIn o s).outcome =
      match c.ending s with
      | .failed e => .error (.compilation (.broken e (Classified.ofDiagnostics (c.told s))))
      | .panicked message =>
        .error (.compilation (.broken (.toolchain (.panicked c.toolchain.name message))
          (Classified.ofDiagnostics (c.told s))))
      | .finished _ =>
        if (Classified.ofDiagnostics (c.told s)).hasErrors then
          .error (.compilation (.diagnosed (Classified.ofDiagnostics (c.told s))))
        else
          match collect (c.trials o s) with
          | .ok built => .ok built
          | .error cause =>
            .error (.compilation (.broken cause (Classified.ofDiagnostics (c.told s)))) := by
  rw [buildIn_eq]
  cases h : c.ending s with
  | failed e => rfl
  | panicked message => rfl
  | finished verdict => exact conclude_finished c o verdict _ _

/-- There are no errors exactly if every diagnostic is a note or a warning. -/
theorem hasErrors_eq_false_iff (ds : List Diagnostic) :
    (Classified.ofDiagnostics ds).hasErrors = false ↔
      ∀ d ∈ ds, d.severity ∈ [Severity.note, .warning, .mandatoryWarning] := by
  rw [← Bool.not_eq_true, Classified.hasErrors_iff]
  simp only [not_exists, not_and, not_not]
  refine forall₂_congr fun d _ => ?_
  rw [Diagnostic.isWarning]
  cases d.severity <;> simp [Severity.isWarning]

/-- There are errors exactly if some diagnostic is neither a note nor a warning. -/
theorem hasErrors_eq_true_iff (ds : List Diagnostic) :
    (Classified.ofDiagnostics ds).hasErrors = true ↔
      ∃ d ∈ ds, d.severity ∉ [Severity.note, .warning, .mandatoryWarning] := by
  rw [← Bool.not_eq_false, hasErrors_eq_false_iff]
  simp only [not_forall, exists_prop]

/-- **When a build succeeds, and what its failure tells.** -/
theorem build_outcome (c : Compiler) (o : VisitOrder) (s : Store) :
    ((∃ built, (c.buildIn o s).outcome = .ok built) ↔
      (∃ verdict, c.ending s = .finished verdict) ∧
      (∀ d ∈ c.told s, d.severity ∈ [Severity.note, .warning, .mandatoryWarning]) ∧
      ∀ n ∈ (c.loader.table (c.settled s)).keys, ∃ h, (n, .ok h) ∈ c.trials o s) ∧
    ∀ e, (c.buildIn o s).outcome = .error e →
      ∃ f : Failure Error, e = .compilation f ∧
        f.errors = (c.told s).filter (fun d => !d.isWarning) ∧
        f.warnings = (c.told s).filter (fun d => d.isWarning) ∧
        (f.cause = none ↔
          (∃ verdict, c.ending s = .finished verdict) ∧
          ∃ d ∈ c.told s, d.severity ∉ [Severity.note, .warning, .mandatoryWarning]) ∧
        ∀ cause, f.cause = some cause → c.BreaksDown o s cause := by
  have herr := hasErrors_eq_false_iff (c.told s)
  rw [outcome_buildIn, trials, ← Loader.trials_visit_succeed_iff, ← collect_isOk_iff, ← trials, ← herr]
  -- the ways a build can break down, in the order in which they are looked at
  cases hend : c.ending s with
  | failed e =>
    refine ⟨by simp, ?_⟩
    rintro _ ⟨rfl⟩
    refine ⟨_, rfl, rfl, rfl, by simp [Failure.broken], ?_⟩
    rintro _ ⟨rfl⟩
    rw [BreaksDown, hend]
  | panicked message =>
    refine ⟨by simp, ?_⟩
    rintro _ ⟨rfl⟩
    refine ⟨_, rfl, rfl, rfl, by simp [Failure.broken], ?_⟩
    rintro _ ⟨rfl⟩
    rw [BreaksDown, hend]
  | finished verdict =>
    cases hd : (Classified.ofDiagnostics (c.told s)).hasErrors with
    | true =>
      refine ⟨by simp, ?_⟩
      rintro _ ⟨rfl⟩
      refine ⟨_, rfl, rfl, rfl, ?_, ?_⟩
      · exact iff_of_true rfl ⟨⟨verdict, rfl⟩, (hasErrors_eq_true_iff _).1 hd⟩
      · rintro _ ⟨⟩
    | false =>
      cases ht : collect (c.trials o s) with
      | ok built => exact ⟨by simp, by rintro _ ⟨⟩⟩
      | error cause =>
        refine ⟨by simp, ?_⟩
        rintro _ ⟨rfl⟩
        refine ⟨_, rfl, rfl, rfl, ?_, ?_⟩
        · refine iff_of_false (by simp [Failure.broken]) fun h => ?_
          rw [← hasErrors_eq_true_iff, hd] at h
          exact Bool.false_ne_true h.2
        · rintro _ ⟨rfl⟩
          rw [BreaksDown, hend]
          exact collect_eq_error_iff.1 ht

end Compiler
end LiveBuild
