/-
# Compiler output

A compiler told to report in JSON writes one message a line.  A message has a
text, an optional code, a level and a list of spans; other members are ignored.
Each record may also be written as an array that holds exactly its members in
their order:

| record | members |
| --- | --- |
| message | `message`, `code`, `level`, `spans`, `rendered` |
| code | `code` |
| span | `line_start`, `column_start`, `is_primary` |

In an object the members `code` and `rendered` of a message may be missing or
null, all others have to be there, and no known member may come twice.

A line that is blank or does not hold a message says nothing, and neither does a
closing tally such as `2 warnings emitted`.  Every other line is one diagnostic,
placed at the first primary span.
-/

import LiveBuild.Diagnostic.Basic
import LiveBuild.Json.Reader
import LiveBuild.Text.Blank
import LiveBuild.Text.Line

namespace LiveBuild
namespace CompilerOutput

/-- A stretch of source text that a message points at. -/
structure Span where
  line : Nat
  column : Nat
  isPrimary : Bool
  deriving DecidableEq, Repr

/-- A message of the compiler. -/
structure Message where
  message : String
  code : Option String
  level : String
  spans : List Span
  deriving DecidableEq, Repr

/-- Positions are numbers of 64 bits. -/
def positionBound : Nat := 0x10000000000000000

/-- The members of an object whose names are all texts. -/
def named? : List (List Json.StringUnit × Json) → Option (List (String × Json))
  | [] => some []
  | (name, value) :: ms => do
    let name ← Json.characters? name
    let ms ← named? ms
    return (String.ofList name, value) :: ms

/-- The one member called `name`, or `none` inside if there is none; nothing if there
are several. -/
def optional? (name : String) (ms : List (String × Json)) : Option (Option Json) :=
  match ms.filter fun m => m.1 = name with
  | [] => some none
  | [m] => some (some m.2)
  | _ => none

/-- The one member called `name`. -/
def required? (name : String) (ms : List (String × Json)) : Option Json :=
  (optional? name ms).join

/-- A value that may be null. -/
def orNull? {α : Type} (read : Json → Option α) : Json → Option (Option α)
  | .null => some none
  | v => (read v).map some

/-- A member that may be missing or null. -/
def orMissing? {α : Type} (read : Json → Option α) : Option Json → Option (Option α)
  | none => some none
  | some v => orNull? read v

/-- The list of what the items of an array denote. -/
def list? {α : Type} (read : Json → Option α) : List Json → Option (List α)
  | [] => some []
  | v :: vs => do
    let a ← read v
    let rest ← list? read vs
    return a :: rest

namespace Span

/-- A span from the values of its members. -/
def ofParts? (line column isPrimary : Json) : Option Span := do
  return ⟨← line.natBelow? positionBound, ← column.natBelow? positionBound, ← isPrimary.bool?⟩

/-- The span that a value denotes. -/
def ofJson? : Json → Option Span
  | .object ms => do
    let ms ← named? ms
    ofParts? (← required? "line_start" ms) (← required? "column_start" ms)
      (← required? "is_primary" ms)
  | .array [line, column, isPrimary] => ofParts? line column isPrimary
  | _ => none

/-- The spans that an array denotes. -/
def listOfJson? : Json → Option (List Span)
  | .array vs => list? ofJson? vs
  | _ => none

end Span

/-- The code that a value denotes. -/
def codeOfJson? : Json → Option String
  | .object ms => do (← required? "code" (← named? ms)).text?
  | .array [code] => code.text?
  | _ => none

namespace Message

/-- A message from the values of its members. -/
def ofParts? (message : Json) (code : Option Json) (level spans : Json) (rendered : Option Json) :
    Option Message := do
  let message ← message.text?
  let code ← orMissing? codeOfJson? code
  let level ← level.text?
  let spans ← Span.listOfJson? spans
  let _ ← orMissing? Json.text? rendered
  return ⟨message, code, level, spans⟩

/-- The message that a value denotes. -/
def ofJson? : Json → Option Message
  | .object ms => do
    let ms ← named? ms
    ofParts? (← required? "message" ms) (← optional? "code" ms) (← required? "level" ms)
      (← required? "spans" ms) (← optional? "rendered" ms)
  | .array [message, code, level, spans, rendered] =>
    ofParts? message (some code) level spans (some rendered)
  | _ => none

/-- Whether a message is one of the tallies with which the compiler closes. -/
def isSummary (m : Message) : Bool :=
  m.spans.isEmpty &&
    (Text.startsWith "aborting due to" m.message ||
      (m.level == "warning" && Text.endsWith " emitted" m.message))

/-- The span that places a message. -/
def primary? (m : Message) : Option Span := m.spans.find? fun s => s.isPrimary

/-- A message as a diagnostic about `unit`. -/
def toDiagnostic (unit : String) (m : Message) : Diagnostic where
  severity := .ofLevel m.level
  source := some unit
  line := m.primary?.map Span.line
  column := m.primary?.map Span.column
  code := m.code
  message := m.message

end Message

/-- The message on a line, if the line holds one. -/
def message? (line : List Char) : Option Message := (Json.parse? line).bind Message.ofJson?

/-- What a line says about `unit`. -/
def diagnostic? (unit : String) (line : List Char) : Option Diagnostic :=
  if Text.allBlank line then none
  else match message? line with
    | none => none
    | some m => if m.isSummary then none else some (m.toDiagnostic unit)

/-- What a compiler's output says about `unit`, line by line. -/
def parse (unit output : String) : List Diagnostic :=
  (Text.lines output.toList).filterMap (diagnostic? unit)

end CompilerOutput
end LiveBuild
