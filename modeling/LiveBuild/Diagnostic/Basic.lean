/-
# Diagnostics

What a toolchain has to say about a unit.  Everything that is not expressly a
note or a warning counts as an error, severities that nobody knows included.

| severity | shown as | partition |
| --- | --- | --- |
| note | `note` | warnings |
| warning | `warning` | warnings |
| mandatory warning | `mandatory warning` | warnings |
| error | `error` | errors |
| any other word | that word | errors |

`Classified.ofDiagnostics` splits a stream of diagnostics in two, each part in
the order of the stream; `Classified.ofDiagnostics_append` says that it splits
two streams one after the other.
-/

namespace LiveBuild

/-- How grave a diagnostic is. -/
inductive Severity where
  | note
  | warning
  | mandatoryWarning
  | error
  | other (word : String)
  deriving DecidableEq, Repr, Inhabited

namespace Severity

/-- Whether a severity belongs to the warnings. -/
def isWarning : Severity → Bool
  | .note | .warning | .mandatoryWarning => true
  | .error | .other _ => false

/-- The severity that the compiler calls `level`. -/
def ofLevel (level : String) : Severity :=
  if level = "error" ∨ level = "error: internal compiler error" then .error
  else if level = "warning" then .warning
  else if level = "note" ∨ level = "help" ∨ level = "failure-note" then .note
  else .other level

/-- A severity in words. -/
def display : Severity → String
  | .note => "note"
  | .warning => "warning"
  | .mandatoryWarning => "mandatory warning"
  | .error => "error"
  | .other word => word

end Severity

/-- One row of a report: where, if known, and what. -/
structure ReportRow where
  line : Option Nat
  message : String
  deriving DecidableEq, Repr, Inhabited

/-- A message about a unit. -/
structure Diagnostic where
  severity : Severity
  /-- The name of the unit it is about. -/
  source : Option String
  line : Option Nat
  column : Option Nat
  code : Option String
  message : String
  deriving DecidableEq, Repr, Inhabited

namespace Diagnostic

/-- An error without a position. -/
def error (source message : String) : Diagnostic :=
  ⟨.error, some source, none, none, none, message⟩

/-- Whether a diagnostic belongs to the warnings. -/
def isWarning (d : Diagnostic) : Bool := d.severity.isWarning

/-- The row of a diagnostic in a report. -/
def row (d : Diagnostic) : ReportRow := ⟨d.line, d.message⟩

/-- Where a diagnostic is, as the beginning of its text; a line needs a unit to be in. -/
def place (d : Diagnostic) : String :=
  match d.source, d.line with
  | none, _ => ""
  | some source, none => source ++ ": "
  | some source, some line => source ++ ":" ++ toString line ++ ": "

/-- A diagnostic in one text. -/
def display (d : Diagnostic) : String :=
  let label := match d.code with
    | some code => d.severity.display ++ "[" ++ code ++ "]"
    | none => d.severity.display
  d.place ++ label ++ ": " ++ d.message

end Diagnostic

/-- Diagnostics in two parts. -/
structure Classified where
  warnings : List Diagnostic
  errors : List Diagnostic
  deriving DecidableEq, Repr, Inhabited

namespace Classified

/-- The two parts of a stream, each in the order of the stream. -/
def ofDiagnostics (ds : List Diagnostic) : Classified where
  warnings := ds.filter fun d => d.isWarning
  errors := ds.filter fun d => !d.isWarning

/-- Whether an error was reported. -/
def hasErrors (c : Classified) : Bool := !c.errors.isEmpty

/-- Whether no error was reported. -/
def isSuccess (c : Classified) : Bool := c.errors.isEmpty

/-- Every diagnostic, errors first. -/
def all (c : Classified) : List Diagnostic := c.errors ++ c.warnings

/-- **Diagnostics are classified one by one,** in the order in which they were reported. -/
theorem ofDiagnostics_append (a b : List Diagnostic) :
    ofDiagnostics (a ++ b) =
      ⟨(ofDiagnostics a).warnings ++ (ofDiagnostics b).warnings,
        (ofDiagnostics a).errors ++ (ofDiagnostics b).errors⟩ := by
  simp [ofDiagnostics]

/-- **Nothing is lost and nothing is doubled:** the two parts together are the stream,
in another order. -/
theorem perm_all_ofDiagnostics (ds : List Diagnostic) : (ofDiagnostics ds).all.Perm ds :=
  List.perm_append_comm.trans (List.filter_append_perm _ ds)

/-- There are errors exactly if some diagnostic is worse than a warning. -/
theorem hasErrors_iff (ds : List Diagnostic) :
    (ofDiagnostics ds).hasErrors ↔ ∃ d ∈ ds, ¬ d.isWarning := by
  simp [hasErrors, ofDiagnostics]

end Classified
end LiveBuild
