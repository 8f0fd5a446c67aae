/-
# A toolchain directed by its units

A toolchain that does what the text of each unit tells it to do.  It compiles
nothing; it serves to drive a build through every course that a build can take.

The directives of a unit are carried out in order.  If none of them reported an
error and none said to skip, the unit's artifact is written in two pieces, through a
sink that is asked for twice.  An error ends the whole build.

What a text's directives are is up to the one who uses the toolchain (`read`).
-/

import LiveBuild.Diagnostic.CompilerOutput
import LiveBuild.Toolchain.Interaction

namespace LiveBuild

/-- One thing to do while a unit is compiled. -/
inductive Directive where
  /-- Report a diagnostic, about the unit itself if it is about nothing else. -/
  | report (d : Diagnostic) (aboutUnit : Bool)
  /-- Report what a compiler's output says about the unit. -/
  | compilerOutput (text : String)
  /-- Ask for a source, and write it if there is something to write. -/
  | generate (name : String) (bytes : Option Bytes)
  /-- Ask for an output and write it. -/
  | output (location : Location) (name : String) (kind : Kind) (bytes : Bytes)
  /-- List a package and note the names. -/
  | list (location : Location) (package : String) (kinds : List Kind) (recurse : Bool)
  /-- Look a name up and note the image. -/
  | resolve (name : String)
  /-- Write no artifact for the unit. -/
  | skip
  /-- Note an error and end with it. -/
  | fail (error : Error)
  /-- Stop dead. -/
  | panic (message : Option String)

/-- A toolchain directed by its units. -/
structure Directed where
  /-- The journal that it keeps. -/
  journal : Nat
  /-- The directives in the text of a unit. -/
  read : String → List Directive
  /-- The verdict to give, whatever happened. -/
  verdict : Option Bool
  /-- How many rounds there are at most. -/
  roundLimit : Nat

namespace Directed

/-- How a unit stands: whether it is without errors, and whether its artifact is skipped. -/
structure Standing where
  ok : Bool
  skipped : Bool
  deriving DecidableEq, Repr

/-- The standing after diagnostics were reported. -/
def Standing.after (s : Standing) (ds : List Diagnostic) : Standing :=
  { s with ok := s.ok && ds.all Diagnostic.isWarning }

/-- Carries one directive out. -/
def carryOut (t : Directed) (unit : String) (s : Standing) : Directive → Interaction Standing
  | .report d aboutUnit => do
    let d := if aboutUnit then { d with source := some unit } else d
    .report [d]
    return s.after [d]
  | .compilerOutput text => do
    let ds := CompilerOutput.parse unit text
    .report ds
    return s.after ds
  | .generate name bytes => do
    let sink ← .outputFor .sourceOutput name .source none
    match bytes with
    | some bytes => .write sink bytes
    | none => pure ()
    return s
  | .output location name kind bytes => do
    let sink ← .outputFor location name kind none
    .write sink bytes
    return s
  | .list location package kinds recurse => do
    let files ← .list location package kinds recurse
    let names ← .each (.binaryName location) files
    .note t.journal (.listed names)
    return s
  | .resolve name => do
    match ← .find .classOutput name with
    | some h => .note t.journal (.resolved (some (← .loaded h).image))
    | none => .note t.journal (.resolved none)
    return s
  | .skip => return { s with skipped := true }
  | .fail e => do
    .note t.journal (.failed e)
    .fail e
  | .panic message => .panic message

/-- Carries directives out, one after the other. -/
def carryOutAll (t : Directed) (unit : String) : Standing → List Directive → Interaction Standing
  | s, [] => .done s
  | s, d :: ds => do carryOutAll t unit (← t.carryOut unit s d) ds

/-- The piece with which every artifact begins. -/
def opening : String := "compiled:"

/-- Compiles one unit; the answer is whether it is without errors. -/
def compileUnit (t : Directed) (unit : Ref SourceUnit) : Interaction Bool := do
  let u ← .unit unit
  let s ← t.carryOutAll u.name ⟨true, false⟩ (t.read (u.content.getD ""))
  if s.ok && !s.skipped then
    let first ← .outputFor .classOutput u.name .compiled none
    .write first (Text.Utf8.encode opening)
    let second ← .outputFor .classOutput u.name .compiled none
    .write second (Text.Utf8.encode u.name)
  return s.ok

/-- Compiles the units of one round. -/
def round (t : Directed) (units : List (Ref SourceUnit)) : Interaction Bool := do
  let names ← .each (fun unit => do return (← .unit unit).name) units
  .note t.journal (.round names)
  .every t.compileUnit units

/-- The directed units as a toolchain. -/
def toolchain (t : Directed) : Toolchain where
  name := "scripted"
  compile := fun units options => do
    .note t.journal (.options options)
    let ok ← .rounds t.round t.roundLimit units
    return t.verdict.getD ok

end Directed
end LiveBuild
