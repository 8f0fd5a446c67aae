/-
# End records

The end record says where the directory of an archive is:

| offset | what |
| ---: | --- |
| 4 | disk |
| 6 | disk of the directory |
| 8 | members on this disk |
| 10 | members |
| 16 | offset of the directory |
| 20 | length of the comment |
| 22 | comment |

The directory begins with the first directory record between that offset and the end
record; how much further down that is, the archive is from the beginning of the file.
An archive without members needs no directory.

The signature may also stand in a comment or in the contents of a member, so every place
where it stands is a candidate.  The last one counts from which the members can be read
(`membersOf`).  If there is none, the fault of one of them is told.  Candidates from the
foremost one on that leads to a directory are left out, since nothing but its members is
wrong there.  Of the others the foremost whole record counts, or else the hindmost that is
cut off.
-/

import LiveBuild.Archive.WideEndRecord

namespace LiveBuild
namespace Archive

/-- What an end record says. -/
structure EndRecord where
  disk : Nat
  directoryDisk : Nat
  /-- How many members there are on this disk. -/
  here : Nat
  count : Nat
  offset : Nat
  deriving DecidableEq, Repr

namespace EndRecord

/-- The end record at the front of bytes. -/
def read (s : Bytes) : Except Fault EndRecord :=
  if !RecordForm.ending.fits s then .error .inputOutput
  else if s.length < RecordForm.ending.length + littleEndian 2 20 s then .error .longComment
  else .ok
    { disk := littleEndian 2 4 s
      directoryDisk := littleEndian 2 6 s
      here := littleEndian 2 8 s
      count := littleEndian 2 10 s
      offset := littleEndian 4 16 s }

/-- Whether a number may have been too large for the record. -/
def mayOverflow (r : EndRecord) : Bool := r.count = 0xFFFF ∨ r.offset = 0xFFFFFFFF

/-- A directory of which the record tells all, if it is on this disk. -/
def directoryAt? (r : EndRecord) (start shift : Nat) : Option Directory :=
  if r.disk = r.directoryDisk then some ⟨r.here, start, shift⟩ else none

/-- The directory that an end record at an index leads to by itself, if it can be used. -/
def ownDirectory (r : EndRecord) (file : Bytes) (index : Nat) : Except Fault (Option Directory) :=
  if r.count = 0 then .ok (r.directoryAt? (max index r.offset) (index - r.offset))
  else if index ≤ r.offset then .error .lateDirectory
  else
    match RecordForm.directory.between file r.offset index with
    | [] => .error .noDirectory
    | (start, _) :: _ => .ok (r.directoryAt? start (start - r.offset))

/-- The directory that an end record at an index leads to, if it can be used. -/
def directory (r : EndRecord) (file : Bytes) (index : Nat) : Except Fault (Option Directory) :=
  match if r.mayOverflow then Locator.before? file index else none with
  | some l => l.directory file
  | none => r.ownDirectory file index

end EndRecord

/-- The members to which the first candidate leads that leads to any. -/
def membersOf (file : Bytes) : (noted : Option Fault) → (candidates : List (Nat × Bytes)) →
    Except Fault (Table String Member)
  | noted, [] => .error (noted.getD .noEndRecord)
  | noted, (index, s) :: candidates =>
    match EndRecord.read s with
    | .error fault => membersOf file (some (noted.getD fault)) candidates
    | .ok r =>
      match r.directory file index with
      | .error fault => membersOf file (some fault) candidates
      | .ok directory? =>
        match directory?.bind fun d => d.table? file with
        | some t => .ok t
        | none => membersOf file none candidates

end Archive
end LiveBuild
