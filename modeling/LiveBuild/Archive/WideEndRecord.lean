/-
# Wide end records

An archive with more members, or a larger offset, than its end record can say has a
second end record, with room for larger numbers.  Its locator stands right before the
end record:

| offset in the locator | what |
| ---: | --- |
| 4 | disk of the wide end record |
| 8 | offset of the wide end record |
| 16 | number of disks |

| offset in the wide end record | what |
| ---: | --- |
| 4 | length of what follows |
| 12 | version that made the archive |
| 14 | version that is needed to read it |
| 16 | disk |
| 20 | disk of the directory |
| 24 | members on this disk |
| 32 | members |
| 48 | offset of the directory |

Every place between that offset and the locator where the signature stands is a
candidate.  The first one counts that agrees with the locator and leaves room for the
directory; if there is none, the fault of the last one is told.  How far it is from
where it should be, the archive is from the beginning of the file.
-/

import LiveBuild.Archive.Directory

namespace LiveBuild
namespace Archive

/-- What tells where a wide end record is. -/
structure Locator where
  disk : Nat
  offset : Nat
  disks : Nat
  /-- Where the locator itself is. -/
  index : Nat
  deriving DecidableEq, Repr

/-- An end record with room for large numbers. -/
structure WideEndRecord where
  /-- How long it is behind the number that says so. -/
  length : Nat
  /-- The version that made the archive. -/
  maker : Nat
  /-- The version that is needed to read it. -/
  needed : Nat
  disk : Nat
  directoryDisk : Nat
  /-- How many members there are on this disk. -/
  here : Nat
  count : Nat
  offset : Nat
  deriving DecidableEq, Repr

namespace WideEndRecord

/-- The wide end record at the front of bytes, which has at most so many. -/
def read (room : Nat) (s : Bytes) : Except Fault WideEndRecord :=
  let length := littleEndian 8 4 s
  if !RecordForm.wideEnding.fits s then .error .inputOutput
  else if length + 12 < RecordForm.wideEnding.length then .error .shortWideRecord
  else if room < length + 12 then .error .longWideRecord
  else .ok
    { length
      maker := littleEndian 2 12 s
      needed := littleEndian 2 14 s
      disk := littleEndian 4 16 s
      directoryDisk := littleEndian 4 20 s
      here := littleEndian 8 24 s
      count := littleEndian 8 32 s
      offset := littleEndian 8 48 s }

/-- The directory that a wide end record leads to, in an archive that begins at `shift`. -/
def directory? (r : WideEndRecord) (shift : Nat) : Option Directory :=
  if r.here ≤ r.count ∧ r.needed ≤ r.maker ∧ r.disk = r.directoryDisk then
    some ⟨r.count, shift + r.offset, shift⟩
  else none

end WideEndRecord

namespace Locator

/-- The locator right before the end record at an index, if there is one. -/
def before? (file : Bytes) (index : Nat) : Option Locator :=
  let start := index - RecordForm.locator.length
  let s := file.drop start
  if index < RecordForm.locator.length ∨ !RecordForm.locator.begins s then none
  else some ⟨littleEndian 4 4 s, littleEndian 8 8 s, littleEndian 4 16 s, start⟩

/-- The wide end record at the front of bytes, which begin at an index, if it agrees with the
locator. -/
def agreeing (l : Locator) (index : Nat) (s : Bytes) : Except Fault WideEndRecord := do
  let r ← WideEndRecord.read (l.index - index) s
  if r.directoryDisk ≠ l.disk then .error .wideRecordDisk
  else if r.length + 12 ≠ l.index - index then .error .wideRecordLength
  else if index < r.count * RecordForm.directory.length + r.offset then .error .wideRecordCount
  else .ok r

/-- The first candidate that agrees with the locator, and where it is. -/
def search (l : Locator) : (noted : Fault) → List (Nat × Bytes) →
    Except Fault (Nat × WideEndRecord)
  | noted, [] => .error noted
  | _, (index, s) :: rest =>
    match l.agreeing index s with
    | .ok r => .ok (index, r)
    | .error fault => l.search fault rest

/-- The directory that a locator leads to, if it can be used. -/
def directory (l : Locator) (file : Bytes) : Except Fault (Option Directory) :=
  if l.index ≤ l.offset then .error .lateWideRecord
  else if 1 < l.disks then .error .severalDisks
  else do
    let candidates := RecordForm.wideEnding.between file l.offset l.index
    let (index, r) ← l.search .noWideRecord candidates
    return r.directory? (index - l.offset)

end Locator

end Archive
end LiveBuild
