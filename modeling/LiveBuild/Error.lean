/-
# Errors

Every way in which an operation can fail is a constructor of `Error`, with its
cause as data; `Error.message` puts it into words.

A build that breaks down is itself such an error.  Its `Failure` keeps the
diagnostics reported so far, in two parts, and the error that broke the build, if
it was not the diagnostics themselves:

| failure | message | cause |
| --- | --- | --- |
| errors were diagnosed | `Compilation Error` | none |
| something broke down | the text of the cause | the cause |
-/

import LiveBuild.Archive.Fault
import LiveBuild.Diagnostic.Basic
import LiveBuild.FileSystem.OsError
import LiveBuild.Path
import LiveBuild.Process

namespace LiveBuild

/-- Why something could not be read. -/
inductive ReadCause where
  | os (e : OsError)
  | archive (fault : Archive.Fault)
  | contents (damage : Archive.Damage)
  | other (text : String)
  deriving DecidableEq, Repr

/-- The text of a cause. -/
def ReadCause.message : ReadCause → String
  | .os e => e.message
  | .archive fault => fault.message
  | .contents damage => damage.message
  | .other text => text

/-- Why there is no compiler to be used. -/
inductive UnavailableCause where
  | notInSearchPath
  | cannotRun (program : Path) (e : OsError)
  | versionRefused (program : Path) (status : ExitStatus)
  | other (text : String)
  deriving DecidableEq, Repr

/-- The text of a cause. -/
def UnavailableCause.message : UnavailableCause → String
  | .notInSearchPath => "rustc not found in PATH"
  | .cannotRun program e => s!"failed to run {program.text}: {e.message}"
  | .versionRefused program status => s!"{program.text} --version exited with {status.display}"
  | .other text => text

/-- Why a source is refused. -/
inductive SourceCause where
  | blankName
  | pending (name : String)
  | queued (name : String)
  | unwritten (name : String)
  | notText (name : String) (fault : Text.Utf8.Fault)
  | other (text : String)
  deriving DecidableEq, Repr

/-- The text of a cause. -/
def SourceCause.message : SourceCause → String
  | .blankName => "source name must not be empty"
  | .pending name => s!"{name} has no content"
  | .queued name => s!"{name} is already queued for this build"
  | .unwritten name => s!"{name} has no content yet"
  | .notText name fault => s!"{name} is not valid UTF-8: {fault.message}"
  | .other text => text

/-- Why a toolchain broke down. -/
inductive ToolchainCause where
  /-- It stopped dead, and left a message or not. -/
  | panicked (toolchain : String) (message : Option String)
  | cannotSpawn (e : OsError)
  | other (text : String)
  deriving DecidableEq, Repr

/-- The text of a cause. -/
def ToolchainCause.message : ToolchainCause → String
  | .panicked toolchain text => s!"{toolchain} panicked: " ++ text.getD "unknown panic"
  | .cannotSpawn e => s!"failed to spawn rustc: {e.message}"
  | .other text => text

/-- Why a build failed, with the diagnostics reported until then. -/
structure Failure (ε : Type) where
  message : String
  warnings : List Diagnostic
  errors : List Diagnostic
  /-- The error that broke the build, unless the diagnosed errors did. -/
  cause : Option ε

namespace Failure

variable {ε : Type}

/-- Every diagnostic of a failure, errors first. -/
def diagnostics (f : Failure ε) : List Diagnostic := f.errors ++ f.warnings

/-- The rows of a failure's report, errors first. -/
def rows (f : Failure ε) : List ReportRow := f.diagnostics.map Diagnostic.row

/-- One row as a line of text. -/
def rowText (r : ReportRow) : String :=
  match r.line with
  | some line => s!"line: {line} , message: {r.message} , \n"
  | none => s!"message: {r.message} , \n"

/-- The message and every row, a line each. -/
def display (f : Failure ε) : String :=
  f.message ++ "\n" ++ String.join (f.rows.map rowText)

/-- The failure of a build in which errors were diagnosed. -/
def diagnosed (c : Classified) : Failure ε := ⟨"Compilation Error", c.warnings, c.errors, none⟩

end Failure

/-- Why an operation failed. -/
inductive Error where
  | toolchainUnavailable (cause : UnavailableCause)
  | compilation (failure : Failure Error)
  | resolution (location : String) (cause : ReadCause)
  | artifactNotFound (name : String)
  | invalidSource (cause : SourceCause)
  | sourceAlreadyWritten (name : String)
  | artifactFinalized (name : String)
  | materialization (name text : String)
  /-- The platform's loader refused; its own words are no part of the error. -/
  | libraryLoad
  | io (cause : ReadCause)
  | toolchain (cause : ToolchainCause)

namespace Error

/-- An error in words. -/
def message : Error → String
  | .toolchainUnavailable cause => s!"toolchain unavailable: {cause.message}"
  | .compilation failure => failure.display
  | .resolution location cause =>
    s!"failed to resolve package contents from {location}: {cause.message}"
  | .artifactNotFound name => s!"artifact not found: {name}"
  | .invalidSource cause => s!"invalid source: {cause.message}"
  | .sourceAlreadyWritten name => s!"source {name} already has content"
  | .artifactFinalized name => s!"artifact {name} is finalized and can no longer be written"
  | .materialization name text => s!"failed to materialize {name}: {text}"
  | .libraryLoad => "failed to load library: <library>"
  | .io cause => s!"IO error: {cause.message}"
  | .toolchain cause => s!"toolchain error: {cause.message}"

end Error

/-- The failure of a build that broke down. -/
def Failure.broken (cause : Error) (c : Classified) : Failure Error :=
  ⟨cause.message, c.warnings, c.errors, some cause⟩

end LiveBuild
