/-
# The directory of an archive

The directory is a row of records, one for each member:

| offset | what |
| ---: | --- |
| 8 | flags |
| 10 | method |
| 16 | checksum |
| 20 | packed size |
| 24 | size |
| 28 | length of the name |
| 30 | length of the extra fields |
| 32 | length of the comment |
| 42 | offset of the member's header |
| 46 | name, extra fields, comment |

Bit 0 of the flags says that the member is encrypted, bit 11 that name and comment are
UTF-8; without it they are in code page 437.

Offsets count from the beginning of the archive, which need not be the beginning of the
file.  The directory can be read if each record is whole and not refused, and leads to a
header before the directory; what is there shows only when the member is read.  If two
records have one name the later one counts, in the place of the earlier one.
-/

import LiveBuild.Archive.ExtraField
import LiveBuild.Table
import LiveBuild.Text.CodePage437

namespace LiveBuild
namespace Archive

/-- The method that stands for a cipher told in an extra field. -/
def cipherMethod : Nat := 99

/-- The text of bytes in a record with these flags. -/
def text (flags : Nat) (s : Bytes) : String :=
  if flags.testBit 11 then Text.Utf8.decodeLossy s else Text.CodePage437.decode s

/-- The member in the directory record at the front, and what follows that record. -/
def Member.ofRecord? (s : Bytes) : Option (Member × Bytes) := do
  let form := RecordForm.directory
  let nameLength := littleEndian 2 28 s
  let extraLength := littleEndian 2 30 s
  let commentLength := littleEndian 2 32 s
  let flags := littleEndian 2 8 s
  if !form.fits s ∨ !form.begins s then none
  else
    let tail := s.drop form.length
    if tail.length < nameLength + extraLength + commentLength then none
    else
      let rawName := tail.take nameLength
      let tail := tail.drop nameLength
      let extra := tail.take extraLength
      let tail := tail.drop extraLength
      let described : Member :=
        { name := text flags rawName
          rawName
          comment := text flags (tail.take commentLength)
          isEncrypted := flags.testBit 0
          hasCipher := false
          method := littleEndian 2 10 s
          checksum := UInt32.ofNat (littleEndian 4 16 s)
          packedSize := littleEndian 4 20 s
          size := littleEndian 4 24 s
          header := littleEndian 4 42 s }
      let m ← described.extend? extra
      if m.method = cipherMethod ∧ !m.hasCipher then none
      else return (m, tail.drop commentLength)

/-- Where the directory of an archive is. -/
structure Directory where
  /-- How many records there are. -/
  count : Nat
  /-- Where the first one begins in the file. -/
  start : Nat
  /-- Where the archive begins in the file. -/
  shift : Nat
  deriving DecidableEq, Repr

namespace Directory

/-- The members in `count` records, behind those that were read. -/
def members? (d : Directory) : (count : Nat) → Bytes → Table String Member →
    Option (Table String Member)
  | 0, _, t => some t
  | count + 1, s, t => do
    let (m, rest) ← Member.ofRecord? s
    let m := { m with header := d.shift + m.header }
    if d.start ≤ m.header then none else d.members? count rest (t.insert m.name m)

/-- The members by name, their headers where they are in the file. -/
def table? (d : Directory) (file : Bytes) : Option (Table String Member) :=
  d.members? d.count (file.drop d.start) Table.empty

end Directory

end Archive
end LiveBuild
