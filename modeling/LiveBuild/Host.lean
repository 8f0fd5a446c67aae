/-
# Hosts

A host is what a loader turns to for the names it does not own.  It can look a
name up, and it can say where the artifacts of a package are: in which
directories, and under which paths in which archives.

The second question is about files alone, so it is a function of the file system;
the first one may load something, so it is an operation on the store.
-/

import LiveBuild.Store

namespace LiveBuild

/-- A place that holds the artifacts of one package. -/
inductive ResourceRoot where
  /-- A directory with the artifact files directly in it. -/
  | directory (path : Path)
  /-- An archive whose members under `parent` belong to the package. -/
  | archive (path : Path) (parent : String)
  deriving DecidableEq, Repr

/-- A namespace that exists beforehand. -/
structure Host where
  /-- The artifact with a qualified name. -/
  find? : String → Action (Option (Ref LoadedArtifact))
  /-- Where the artifacts of a package are, the package written as a path. -/
  resources : String → FileSystem → Except Error (List ResourceRoot)

namespace Host

/-- The host that owns nothing. -/
def empty : Host := ⟨fun _ => pure none, fun _ _ => .ok []⟩

/-- The host that finds no names and has the same roots for every package. -/
def fixed (roots : List ResourceRoot) : Host := ⟨fun _ => pure none, fun _ _ => .ok roots⟩

end Host
end LiveBuild
