/-
# Changing a file system

Writing makes the directories on the way and follows links to where the file
belongs; a file that may be run may still be run when it has been written over, though
it is no program then.  Removing takes away an entry and everything below it, and a link
itself rather than what it leads to.
-/

import LiveBuild.FileSystem.Basic

namespace LiveBuild
namespace FileSystem

/-- The file system with an entry at an address. -/
def put (fs : FileSystem) (a : Address) (e : Entry) : FileSystem :=
  if a = [] then fs else ⟨fs.entries.insert a e⟩

/-- The file system without the entries at and below an address. -/
def removeTree (fs : FileSystem) (a : Address) : FileSystem :=
  ⟨fs.entries.filterKeys fun b => (Text.dropPrefix? a b).isNone⟩

/-- Where one component leads from an address, a directory made there if nothing is. -/
def enter (fs : FileSystem) (a : Address) (c : Component) : FileSystem × Address :=
  match fs.walk maxLinks a [c] with
  | .ok (b, _) => (fs, b)
  | .error _ =>
    match c with
    | .name n => (fs.put (a ++ [n]) .directory, a ++ [n])
    | _ => (fs, a)

/-- Where components lead, directories made wherever nothing is. -/
def enterAll (fs : FileSystem) (cs : List Component) : FileSystem × Address :=
  cs.foldl (fun s c => enter s.1 s.2 c) (fs, [])

/-- The file system with the directories that lead along a path. -/
def makeDirectory (fs : FileSystem) (p : Path) : FileSystem := (fs.enterAll p.moves).1

/-- The file system with the directories that a path goes through before its end. -/
def makeParents (fs : FileSystem) (p : Path) : FileSystem := (fs.enterAll p.moves.dropLast).1

/-- The file system with a file where a path leads; its mode may depend on what was there. -/
def putFile (fs : FileSystem) (p : Path) (content : Bytes) (mode : Option Entry → FileMode) :
    FileSystem :=
  let fs := fs.makeParents p
  match fs.destination p with
  | some a => fs.put a (.file content (mode (fs.entry? a)))
  | none => fs

/-- The mode of a file that is written where something was, or nothing. -/
def modeAfter : Option Entry → FileMode
  | some (.file _ .plain) => .plain
  | some (.file _ _) => .marked
  | _ => .plain

/-- The file system with a file of this content. -/
def write (fs : FileSystem) (p : Path) (content : Bytes) : FileSystem :=
  fs.putFile p content modeAfter

/-- The file system with a program. -/
def install (fs : FileSystem) (p : Path) (run : Executable) : FileSystem :=
  fs.putFile p [] fun _ => .program run

/-- The address that a path names, a link at its end not followed. -/
def named? (fs : FileSystem) (p : Path) : Option Address :=
  match fs.walk maxLinks [] p.moves.dropLast, p.moves.getLast? with
  | .ok (a, _), some (.name n) => some (a ++ [n])
  | _, _ => none

/-- The file system with a link. -/
def link (fs : FileSystem) (p target : Path) : FileSystem :=
  let fs := fs.makeParents p
  match fs.named? p with
  | some a => fs.put a (.link target)
  | none => fs

/-- The file system without what a path names. -/
def remove (fs : FileSystem) (p : Path) : FileSystem :=
  match fs.named? p with
  | some a => fs.removeTree a
  | none => fs

end FileSystem
end LiveBuild
