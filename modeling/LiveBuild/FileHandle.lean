/-
# Files as a toolchain sees them

A file is a source unit in memory, an artifact in memory, an artifact that the
host has, or a file of the platform.  The first two are named by reference: what
they are called and what they contain is in the store.

| file | name | contents |
| --- | --- | --- |
| source unit | its path name | its text, once it is written |
| artifact | its path name | the bytes so far |
| artifact of the host | its file path or member path | read at that moment |
| file of the platform | its path | read at that moment |
-/

import LiveBuild.Finder
import LiveBuild.Store

namespace LiveBuild

/-- A file of the platform. -/
structure StandardFile where
  path : Path
  kind : Kind
  /-- The qualified name that its position under its root gives it. -/
  binaryName : String
  deriving DecidableEq, Repr

/-- A file as a toolchain sees it. -/
inductive FileHandle where
  | source (unit : Ref SourceUnit)
  | artifact (artifact : Ref Artifact)
  | resolved (artifact : ResolvedArtifact)
  | standard (file : StandardFile)
  deriving DecidableEq

namespace FileHandle

/-- The name of a file. -/
def name (s : Store) : FileHandle → String
  | .source u => (s.units.get u).pathName
  | .artifact a => (s.artifacts.get a).pathName
  | .resolved r => r.pathName
  | .standard file => file.path.text

/-- What a file holds. -/
def kind (s : Store) : FileHandle → Kind
  | .source _ => .source
  | .artifact a => (s.artifacts.get a).kind
  | .resolved _ => .compiled
  | .standard file => file.kind

/-- The contents of a file. -/
def read (s : Store) : FileHandle → Except Error Bytes
  | .source u => (s.units.get u).read
  | .artifact a => .ok (s.artifacts.get a).bytes
  | .resolved r => r.read s.files
  | .standard file =>
    match s.files.read file.path with
    | .ok bytes => .ok bytes
    | .error e => .error (.io (.os e))

end FileHandle

/-- Where a toolchain writes one output. -/
inductive Sink where
  | artifact (artifact : Ref Artifact)
  | source (unit : Ref SourceUnit)
  deriving DecidableEq

namespace Sink

/-- The qualified name of an output. -/
def name (s : Store) : Sink → String
  | .artifact a => (s.artifacts.get a).name
  | .source u => (s.units.get u).name

/-- Writes to an output: an artifact takes bytes one after the other, a source takes its
whole text at once. -/
def write (bytes : Bytes) : Sink → Action Unit
  | .artifact a => Store.writeArtifact a bytes
  | .source u => Store.writeUnit u bytes

end Sink
end LiveBuild
