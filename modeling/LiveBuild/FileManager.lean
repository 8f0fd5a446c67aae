/-
# The file manager of a build

A toolchain does all its reading and writing through a file manager.  Outputs are
kept in memory, and what is asked for under one name is one object:

* a source that is asked for joins the build: it waits in a queue until the
  toolchain takes it, once;
* any other output is an artifact, owned by the loader from the first moment.

A listing is what the platform has.  On the class path, if compiled files are asked
for, two more parts follow it: the finished artifacts that the loader owns directly
in the package, by name, and what the finder has for the package.  Locations of the
platform are left to the platform.
-/

import LiveBuild.Loader
import LiveBuild.StandardFiles.Basic

namespace LiveBuild

/-- The file manager of one build. -/
structure FileManager where
  standard : StandardFiles
  loader : Loader
  finder : Finder
  outputs : Ref Outputs

namespace FileManager

/-- A file manager that was asked for nothing yet. -/
def new (standard : StandardFiles) (loader : Loader) (finder : Finder) (s : Store) :
    FileManager × Store :=
  (⟨standard, loader, finder, s.newOutputs.1⟩, s.newOutputs.2)

/-- What was asked for so far. -/
def asked (m : FileManager) (s : Store) : Outputs := s.outputs.get m.outputs

/-- The store with what was asked for changed. -/
def modifyAsked (m : FileManager) (f : Outputs → Outputs) (s : Store) : Store :=
  { s with outputs := s.outputs.modify m.outputs f }

/-- The sink of a source: the one asked for before, or a new pending unit in the queue. -/
def sourceFor (m : FileManager) (name : String) (s : Store) : Sink × Store :=
  match (m.asked s).sources.find? name with
  | some r => (.source r, s)
  | none =>
    let (r, s) := s.newUnit (.pending name)
    (.source r, m.modifyAsked (fun o =>
      { o with sources := o.sources.insert name r, queue := o.queue ++ [r] }) s)

/-- The sink of an artifact: the one asked for before, or a new one that the loader owns. -/
def artifactFor (m : FileManager) (name : String) (kind : Kind) (s : Store) : Sink × Store :=
  match (m.asked s).artifacts.find? name with
  | some r => (.artifact r, s)
  | none =>
    let (r, s) := s.newArtifact (.new name kind)
    let (_, s) := m.loader.register r s
    (.artifact r, m.modifyAsked (fun o => { o with artifacts := o.artifacts.insert name r }) s)

/-- The sink of an output.  Neither the location nor a file that the output belongs to
makes a difference. -/
def outputFor (m : FileManager) (_location : Location) (name : String) (kind : Kind)
    (_sibling : Option FileHandle) (s : Store) : Sink × Store :=
  if kind = .source then m.sourceFor name s else m.artifactFor name kind s

/-- The sources asked for and not taken before, in order. -/
def takeGenerated (m : FileManager) (s : Store) : List (Ref SourceUnit) × Store :=
  ((m.asked s).queue, m.modifyAsked (fun o => { o with queue := [] }) s)

/-- Every source asked for. -/
def generated (m : FileManager) (s : Store) : List (Ref SourceUnit) := (m.asked s).sources.values

/-- Every artifact asked for. -/
def artifacts (m : FileManager) (s : Store) : List (Ref Artifact) := (m.asked s).artifacts.values

/-- Makes every artifact asked for read-only. -/
def finish (m : FileManager) (s : Store) : Store := s.finalizeAll (m.artifacts s)

/-- Whether an artifact is finished and of the kind that class paths hold. -/
def isListed (s : Store) (r : Ref Artifact) : Bool :=
  (s.artifacts.get r).isFinalized && (s.artifacts.get r).kind == .compiled

/-- The finished artifacts that the loader owns directly in a package, by name. -/
def ownedIn (m : FileManager) (package : String) (s : Store) : List (Ref Artifact) :=
  ((m.loader.names s).filter fun name => QualifiedName.package name = package).filterMap fun name =>
    (m.loader.artifact? name s).filter (isListed s)

/-- The files of some kinds in a package at a location. -/
def list (m : FileManager) (location : Location) (package : String) (kinds : List Kind)
    (recurse : Bool) (s : Store) : Except Error (List FileHandle) :=
  match m.standard.list s.files location package kinds recurse with
  | .error e => .error e
  | .ok files =>
    if location = .classPath ∧ .compiled ∈ kinds then
      match m.finder.find s.files package with
      | .error e => .error e
      | .ok found =>
        .ok (files ++ (m.ownedIn package s).map .artifact ++ found.map .resolved)
    else .ok files

/-- The qualified name of a file. -/
def binaryName (m : FileManager) (location : Location) (file : FileHandle) (s : Store) :
    Option String :=
  match file with
  | .source u => some (s.units.get u).name
  | .artifact a => some (s.artifacts.get a).name
  | .resolved r => some r.binaryName
  | .standard _ => m.standard.binaryName location file

/-- Whether two handles are the same file: two sources are if they have one name. -/
def same (m : FileManager) (a b : FileHandle) (s : Store) : Bool :=
  match a, b with
  | .source a, .source b => (s.units.get a).name == (s.units.get b).name
  | _, _ => m.standard.same a b

/-- The namespace that generated code is loaded into, the same for every location. -/
def loaderAt (m : FileManager) (_location : Location) : Loader := m.loader

end FileManager
end LiveBuild
