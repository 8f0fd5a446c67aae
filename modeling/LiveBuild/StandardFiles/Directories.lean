/-
# Standard files in directories

Each location has a list of root directories, and a package is the directory
under a root that its name leads to.  The files of a package come root by root, in
each directory in increasing order of their names; with sub-packages, those of a
directory come where the directory itself stands in that order.

A file is of the first kind asked for whose extension it ends with.  A kind without
an extension is never found.

The descent ends because every directory has a longer path than the one it is in,
and paths that lead somewhere are short.
-/

import LiveBuild.Gather
import LiveBuild.StandardFiles.Basic

namespace LiveBuild

/-- Root directories by location. -/
structure Directories where
  /-- The roots, in the order in which they are searched. -/
  roots : List (Location × Path)

namespace Directories

/-- No roots at all. -/
def none : Directories := ⟨[]⟩

/-- One root more. -/
def withRoot (d : Directories) (location : Location) (root : Path) : Directories :=
  ⟨d.roots ++ [(location, root)]⟩

/-- The roots of a location. -/
def rootsOf (d : Directories) (location : Location) : List Path :=
  (d.roots.filter fun r => r.1 = location).map Prod.snd

/-- The name of a file without the extension of a kind, if it has that extension. -/
def stem? (fileName : String) (kind : Kind) : Option (Kind × String) :=
  if kind.extension = "" then Option.none
  else (Text.beforeEnd? kind.extension fileName).map fun stem => (kind, stem)

/-- The first of the kinds that a file name has the extension of, and the rest of the name. -/
def kindOf? (kinds : List Kind) (fileName : String) : Option (Kind × String) :=
  kinds.findSome? (stem? fileName)

/-- The file of a package that a path is, if it is of one of the kinds. -/
def fileAt? (kinds : List Kind) (package : String) (path : Path) (n : FileName) :
    Option FileHandle :=
  (kindOf? kinds n.text).map fun (kind, stem) =>
    .standard ⟨path, kind, QualifiedName.member package stem⟩

/-- Names in increasing order. -/
def inOrder (names : List FileName) : List FileName :=
  names.mergeSort fun a b => decide (a.text ≤ b.text)

/-- The path of a file in a directory is longer than that of the directory. -/
theorem bytes_lt_child (dir : Path) (n : FileName) :
    dir.text.utf8ByteSize < (dir.child n.text).text.utf8ByteSize := by
  have hn : n.text.utf8ByteSize ≠ 0 := fun h => n.nonempty (String.utf8ByteSize_eq_zero_iff.1 h)
  unfold Path.child
  split <;> simp only [String.utf8ByteSize_append] <;> omega

/-- The files of some kinds in a directory that is the package `package`. -/
def listDirectory (fs : FileSystem) (kinds : List Kind) (recurse : Bool) (dir : Path)
    (package : String) : Except Error (List FileHandle) :=
  match fs.readDirectory dir with
  | .error e => .error (.io (.os e))
  | .ok names =>
    gather (fun n =>
      if _h : fs.isDirectory (dir.child n.text) then
        if recurse then
          listDirectory fs kinds recurse (dir.child n.text) (QualifiedName.member package n.text)
        else .ok []
      else .ok (fileAt? kinds package (dir.child n.text) n).toList) (inOrder names)
termination_by FileSystem.maxPathBytes - dir.text.utf8ByteSize
decreasing_by
  have h₁ := bytes_lt_child dir n
  have h₂ := FileSystem.bytes_lt_of_isDirectory _h
  omega

/-- The files of some kinds in a package under one root. -/
def listRoot (fs : FileSystem) (package : String) (kinds : List Kind) (recurse : Bool)
    (root : Path) : Except Error (List FileHandle) :=
  let dir := root.join (QualifiedName.toPath package)
  if fs.isDirectory dir then listDirectory fs kinds recurse dir package else .ok []

/-- The files of some kinds in a package at a location. -/
def list (d : Directories) (fs : FileSystem) (location : Location) (package : String)
    (kinds : List Kind) (recurse : Bool) : Except Error (List FileHandle) :=
  gather (listRoot fs package kinds recurse) (d.rootsOf location)

/-- The qualified name of a file of the platform. -/
def binaryName : FileHandle → Option String
  | .standard file => some file.binaryName
  | _ => Option.none

/-- Whether two handles are the same file: paths and places are compared step by step,
objects by identity. -/
def same : FileHandle → FileHandle → Bool
  | .standard a, .standard b => a.path.same b.path
  | .artifact a, .artifact b => a = b
  | .resolved a, .resolved b => a.same b
  | .source a, .source b => a = b
  | _, _ => false

/-- Directories as the platform's file resolution. -/
def toStandardFiles (d : Directories) : StandardFiles := ⟨d.list, fun _ => binaryName, same⟩

end Directories
end LiveBuild
