/-
# The compiler as a toolchain

Each unit is one run of the compiler, entirely through pipes: the text goes in, the
compiled form comes out, and what the compiler says arrives beside it as JSON.

| what happened | diagnostics | output |
| --- | --- | --- |
| the unit was never written | one error | none |
| the compiler succeeded | what it said | what it wrote |
| it failed and said errors | what it said | none |
| it failed and said no error | what it said, and one error with its status | none |

A run that cannot be started breaks the unit down.  The pipes themselves are taken to
work: once the compiler runs, its text reaches it and its answer is read to the end, so
the two errors of writing to it and of waiting for it do not occur here.

All units of a round are compiled, whatever becomes of the others; after that the
first of them that broke down, in their order, decides.  Where units of a round may be
compiled side by side, this is the schedule that takes them one after the other in
their order: what a unit reports, and where its output stands among the others', is as
in that schedule.  A unit asks for no sources, so two rounds are all there can be: the
units given, and what was still to be compiled before.
-/

import LiveBuild.Diagnostic.CompilerOutput
import LiveBuild.Toolchain.Interaction

namespace LiveBuild

/-- A compiler that was found to run. -/
structure Rustc where
  path : Path
  version : String
  /-- The edition of units, unless the options name one. -/
  edition : String
  deriving DecidableEq, Repr

namespace Rustc

/-- The edition unless another one is chosen. -/
def defaultEdition : String := "2021"

/-- The compiler at a path, asked for its version. -/
def «at» (path : Path) : Action Rustc := fun s =>
  match s.execute path ["--version"] [] with
  | (.error e, s) => .error (.toolchainUnavailable (.cannotRun path e)) s
  | (.ok output, s) =>
    if output.status.isSuccess then
      .ok ⟨path, Text.trim (Text.Utf8.decodeLossy output.stdout), defaultEdition⟩ s
    else .error (.toolchainUnavailable (.versionRefused path output.status)) s

/-- The first compiler in the search path. -/
def locate : Action Rustc := fun s =>
  let candidates := s.searchPath.map fun dir => dir.join "rustc"
  match candidates.find? s.files.isExecutable with
  | some path => Rustc.at path s
  | none => .error (.toolchainUnavailable .notInSearchPath) s

/-- The compiler with another edition. -/
def withEdition (r : Rustc) (edition : String) : Rustc := { r with edition }

/-- A character of a crate name: letters and digits of ASCII are kept, in lower case. -/
def crateChar (c : Char) : Char := if c.isAlphanum then c.toLower else '_'

/-- The crate name of a unit. -/
def crateName (unit : String) : String :=
  let chars := unit.toList.map crateChar
  match chars with
  | [] => "unit_"
  | c :: _ => if c.isDigit then "unit_" ++ String.ofList chars else String.ofList chars

/-- The arguments with which a unit is compiled. -/
def arguments (r : Rustc) (unit : String) (options : List String) : List String :=
  ["-", "--crate-type", "lib", "--crate-name", crateName unit, "--error-format=json",
    "--emit=llvm-ir", "-C", "codegen-units=1", "-o", "-"] ++
  (if options.any (Text.startsWith "--edition") then [] else ["--edition=" ++ r.edition]) ++
  options

/-- The error of a compiler that failed and said no error. -/
def silentFailure (unit : String) (status : ExitStatus) (said : String) : Diagnostic :=
  .error unit s!"rustc exited with {status.display}: {Text.trim said}"

/-- Compiles one unit; the answer is whether the compiler accepted it. -/
def compileUnit (r : Rustc) (options : List String) (unit : Ref SourceUnit) :
    Interaction Bool := do
  let u ← .unit unit
  match u.content with
  | none =>
    .report [.error u.name "source was requested but never written"]
    return false
  | some text =>
    match ← .execute r.path (r.arguments u.name options) (Text.Utf8.encode text) with
    | .error e => .fail (.toolchain (.cannotSpawn e))
    | .ok output =>
      let said := Text.Utf8.decodeLossy output.stderr
      let diagnostics := CompilerOutput.parse u.name said
      .report diagnostics
      if output.status.isSuccess then
        let sink ← .outputFor .classOutput u.name .compiled (some (.source unit))
        .write sink output.stdout
        return true
      else
        if diagnostics.all Diagnostic.isWarning then
          .report [silentFailure u.name output.status said]
        return false

/-- Whether all answers are yes, or the first error among them. -/
def verdict : List (Except Error Bool) → Interaction Bool
  | [] => .done true
  | .error e :: _ => .fail e
  | .ok ok :: rest => do return (← verdict rest) && ok

/-- Compiles the units of one round. -/
def round (r : Rustc) (options : List String) (units : List (Ref SourceUnit)) :
    Interaction Bool := do
  verdict (← .each (fun unit => (r.compileUnit options unit).attempt) units)

/-- The compiler as a toolchain. -/
def toolchain (r : Rustc) : Toolchain where
  name := "rustc"
  compile := fun units options => .rounds (r.round options) 2 units

end Rustc
end LiveBuild
