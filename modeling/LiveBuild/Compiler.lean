/-
# Builds

A compiler collects source units and compiles them together.  Queueing a unit
refuses three things, in this order: a blank name, a unit that has no text yet, and a
name that is queued already.

A build takes the whole queue, whatever becomes of it, and gives the toolchain a file
manager of its own.  When the toolchain is done, everything it asked for is made
read-only, and then

| toolchain | diagnostics | materializing | build |
| --- | --- | --- | --- |
| failed or panicked | any | not tried | fails with that cause |
| finished | an error | not tried | fails as diagnosed |
| finished | no error | fails | fails with that cause |
| finished | no error | succeeds | every artifact that the loader owns, by name |

whatever verdict the toolchain gave.  The loader stays from one build to the next.  The
order in which artifacts are materialized is a parameter of a build (`buildIn`).
-/

import LiveBuild.Options
import LiveBuild.Text.Blank
import LiveBuild.Toolchain.Rustc

namespace LiveBuild

/-- Compiles source units and loads what becomes of them. -/
structure Compiler where
  toolchain : Toolchain
  options : Options
  standard : StandardFiles
  /-- Owns every artifact that was compiled. -/
  loader : Loader
  /-- Lists what the host has. -/
  finder : Finder
  /-- The units for the next build. -/
  queued : List (Ref SourceUnit)

/-- What a build leaves behind. -/
structure BuildResult where
  outcome : Except Error (List (String × Ref LoadedArtifact))
  compiler : Compiler
  store : Store

namespace Compiler

/-- A compiler whose loader has `parent` above it. -/
def new (toolchain : Toolchain) (parent : Host) (options : Options) (standard : StandardFiles)
    (materializer : Materializer) (s : Store) : Compiler × Store :=
  let (loader, s) := Loader.new parent materializer s
  (⟨toolchain, options, standard, loader, ⟨parent, defaultExtension⟩, []⟩, s)

/-- A compiler with the toolchain that is found in the search path. -/
def withRustc (parent : Host) (options : Options) (standard : StandardFiles)
    (materializer : Materializer) : Action Compiler := fun s =>
  match Rustc.locate s with
  | .error e s => .error e s
  | .ok r s =>
    let (c, s) := new r.toolchain parent options standard materializer s
    .ok c s

/-- The compiler with another materializer, and with a loader that owns nothing yet. -/
def withMaterializer (c : Compiler) (materializer : Materializer) (s : Store) : Compiler × Store :=
  let (loader, s) := Loader.new c.loader.parent materializer s
  ({ c with loader }, s)

/-- The compiler with other standard files. -/
def withStandardFiles (c : Compiler) (standard : StandardFiles) : Compiler := { c with standard }

/-- The compiler with another extension of the host's artifact files. -/
def withExtension (c : Compiler) (extension : String) : Compiler :=
  { c with finder := { c.finder with extension } }

/-- The names in the queue. -/
def queuedNames (c : Compiler) (s : Store) : List String :=
  c.queued.map fun r => (s.units.get r).name

/-- The compiler with one more unit queued. -/
def addUnit (c : Compiler) (r : Ref SourceUnit) (s : Store) : Except Error Compiler :=
  let u := s.units.get r
  if Text.allBlank u.name.toList then .error (.invalidSource .blankName)
  else if u.isPending then .error (.invalidSource (.pending u.name))
  else if u.name ∈ c.queuedNames s then .error (.invalidSource (.queued u.name))
  else .ok { c with queued := c.queued ++ [r] }

/-- Makes a unit of a text and queues it. -/
def addSource (c : Compiler) (name text : String) (s : Store) : Except Error Compiler × Store :=
  let (r, s) := s.newUnit ⟨name, some text⟩
  (c.addUnit r s, s)

/-- What a build comes to when its toolchain is done. -/
def conclude (c : Compiler) (o : VisitOrder) (outcome : Outcome Bool) (reported : List Diagnostic) :
    Action (List (String × Ref LoadedArtifact)) := fun s =>
  let classified := Classified.ofDiagnostics reported
  match outcome with
  | .failed cause => .error (.compilation (.broken cause classified)) s
  | .panicked message =>
    .error (.compilation
      (.broken (.toolchain (.panicked c.toolchain.name message)) classified)) s
  | .finished _ =>
    if classified.hasErrors then .error (.compilation (.diagnosed classified)) s
    else
      match c.loader.allMaterializedIn o s with
      | .ok built s => .ok built s
      | .error cause s => .error (.compilation (.broken cause classified)) s

/-- Compiles the queued units; what the loader then owns is materialized in an order. -/
def buildIn (c : Compiler) (o : VisitOrder) (s : Store) : BuildResult :=
  let (files, s) := FileManager.new c.standard c.loader c.finder s
  let (outcome, b) := (c.toolchain.compile c.queued c.options.effective).run files ⟨s, []⟩
  let s := files.finish b.store
  let (_, s) := files.takeGenerated s
  let (result, s) := (c.conclude o outcome b.reported).attempt s
  ⟨result, { c with queued := [] }, s⟩

/-- Compiles the queued units. -/
def build (c : Compiler) (s : Store) : BuildResult := c.buildIn .increasing s

end Compiler
end LiveBuild
