/-
# Archives in files

Opening the archive that a path leads to, and reading one member of it.  What
keeps an archive or a member from being read at all is a failure to resolve, told
at the archive or at the member; what is wrong with the contents of a member is a
failure to read.
-/

import LiveBuild.Archive.Basic
import LiveBuild.Error
import LiveBuild.FileSystem.Basic

namespace LiveBuild
namespace Archive

/-- The archive that a path leads to. -/
def openAt (fs : FileSystem) (p : Path) : Except Error Archive :=
  match fs.read p with
  | .error .isADirectory => .error (.resolution p.text (.archive .inputOutput))
  | .error e => .error (.resolution p.text (.os e))
  | .ok file =>
    match ofBytes file with
    | .ok a => .ok a
    | .error fault => .error (.resolution p.text (.archive fault))

/-- A member's place as it is told in errors. -/
def place (p : Path) (member : String) : String := p.text ++ "!/" ++ member

/-- The contents of the member of an archive file, or nothing if it has no such member. -/
def readMember? (fs : FileSystem) (p : Path) (member : String) : Except Error (Option Bytes) :=
  match openAt fs p with
  | .error e => .error e
  | .ok a =>
    match a.read? member with
    | none => .ok none
    | some (.ok contents) => .ok (some contents)
    | some (.error (.refused fault)) => .error (.resolution (place p member) (.archive fault))
    | some (.error (.damaged damage)) => .error (.io (.contents damage))

end Archive
end LiveBuild
