/-
# Extra fields

Behind its name, a directory record may tell more about its member in extra fields.
Each begins with two numbers of two bytes, its kind and its length, and the kinds that
count are these:

| kind | holds | counts only if |
| ---: | --- | --- |
| `0001` | the sizes and the header's offset, eight bytes each, as far as they are wanted | they are no longer than the field |
| `000A` | three times | its length is 32, its tag 1 and the length of that 24 |
| `5455` | times, told by three flags | its length is 5, or one and four for each flag |
| `6375` | the comment as UTF-8 | its checksum is that of the comment so far |
| `7075` | the name as UTF-8 | its checksum is that of the name so far |
| `9901` | the cipher, and the method by which the member was packed before | its length is 7, and maker, version and strength are known |

The fields are read one after the other, and each reads as far as it needs; the times of
kind `5455` that are not read are taken for the next field.  A field that does not count
makes the whole record count for nothing (`Stop.refused`).  But where the bytes end too
early, what was read until then holds (`Stop.short`).
-/

import LiveBuild.Archive.Member

namespace LiveBuild
namespace Archive
namespace ExtraField

/-- Why the reading of extra fields stops before their end. -/
inductive Stop where
  | short
  | refused
  deriving DecidableEq, Repr

/-- What is known of the member so far, and the bytes to be read. -/
structure Progress where
  member : Member
  rest : Bytes

/-- What reads on in extra fields. -/
abbrev Reader := EStateM Stop Progress

/-- The next bytes. -/
def bytes (count : Nat) : Reader Bytes := fun p =>
  if p.rest.length < count then .error .short p
  else .ok (p.rest.take count) { p with rest := p.rest.drop count }

/-- A number of so many bytes. -/
def number (width : Nat) : Reader Nat := return ofLittleEndian (← bytes width)

/-- Leaves bytes out. -/
def skip (count : Nat) : Reader Unit := do
  let _ ← bytes count

/-- Refuses what does not meet a condition. -/
def require (condition : Bool) : Reader Unit := if condition then pure () else throw .refused

/-- The member as it is known so far. -/
def member : Reader Member := return (← get).member

/-- Learns more about the member. -/
def learn (f : Member → Member) : Reader Unit :=
  modify fun p => { p with member := f p.member }

/-- What stands in a directory record in place of a number that is too large for it. -/
def elsewhere : Nat := 0xFFFFFFFF

/-- A number that the directory record has as `value`, and how many bytes it takes up in a
field of some length. -/
def wideNumber (length value : Nat) : Reader (Nat × Nat) := do
  if 24 ≤ length ∨ value = elsewhere then return (← number 8, 8) else return (value, 0)

/-- Sizes and offset that are too large for the directory record. -/
def wideNumbers (length : Nat) : Reader Unit := do
  let (size, a) ← wideNumber length (← member).size
  learn fun m => { m with size }
  let (packedSize, b) ← wideNumber length (← member).packedSize
  learn fun m => { m with packedSize }
  let (header, c) ← wideNumber length (← member).header
  learn fun m => { m with header }
  require (a + b + c ≤ length)
  skip (length - (a + b + c))

/-- Times of a file system. -/
def fileTimes (length : Nat) : Reader Unit := do
  require (length = 32)
  skip 4
  require ((← number 2) = 1)
  require ((← number 2) = 24)
  skip 24

/-- How many of three flags are set. -/
def flagCount (flags : Nat) : Nat := ((List.range 3).filter flags.testBit).length

/-- Times, each told by a flag.  In a short field there is but the first. -/
def timestamps (length : Nat) : Reader Unit := do
  let flags ← number 1
  require (flags < 8)
  require (length = 5 ∨ length = 1 + 4 * flagCount flags)
  if flags.testBit 0 ∨ length = 5 then skip 4
  if flags.testBit 1 ∧ 5 < length then skip 4
  if flags.testBit 2 ∧ 5 < length then skip 4

/-- The encryption of the member. -/
def cipher (length : Nat) : Reader Unit := do
  require (length = 7)
  let version ← number 2
  let maker ← number 2
  let strength ← number 1
  let method ← number 2
  require (maker = 0x4541)
  require (version = 1 ∨ version = 2)
  require (1 ≤ strength ∧ strength ≤ 3)
  learn fun m => { m with hasCipher := true, method }

/-- A text in place of another one, whose checksum stands before it. -/
def replacement (length : Nat) (former : Bytes) : Reader (Bytes × String) := do
  skip 1
  let checksum ← number 4
  require (5 ≤ length)
  let content ← bytes (length - 5)
  require (checksum = (Checksum.crc32 former).toNat)
  match Text.Utf8.decode content with
  | .ok text => return (content, text)
  | .error _ => throw .refused

/-- The comment in UTF-8. -/
def comment (length : Nat) : Reader Unit := do
  let (_, comment) ← replacement length (Text.Utf8.encode (← member).comment)
  learn fun m => { m with comment }

/-- The name in UTF-8. -/
def name (length : Nat) : Reader Unit := do
  let (rawName, name) ← replacement length (← member).rawName
  learn fun m => { m with rawName, name }

/-- What is read of a field, by its kind and length. -/
def content (kind length : Nat) : Reader Unit :=
  match kind with
  | 0x0001 => wideNumbers length
  | 0x000A => fileTimes length
  | 0x5455 => timestamps length
  | 0x6375 => comment length
  | 0x7075 => name length
  | 0x9901 => cipher length
  | _ => skip length

/-- Up to `limit` fields. -/
def fields : (limit : Nat) → Reader Unit
  | 0 => pure ()
  | limit + 1 => do
    if (← get).rest.isEmpty then pure ()
    else
      let kind ← number 2
      content kind (← number 2)
      fields limit

end ExtraField

/-- The member with what extra fields tell about it, unless they are refused. -/
def Member.extend? (m : Member) (extra : Bytes) : Option Member :=
  match ExtraField.fields extra.length ⟨m, extra⟩ with
  | .ok _ p => some p.member
  | .error .short p => some p.member
  | .error .refused _ => none

end Archive
end LiveBuild
