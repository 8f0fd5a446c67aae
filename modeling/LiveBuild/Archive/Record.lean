/-
# Records

An archive is made of records.  Each begins with a signature, by which it is found and
told from the others, and holds little-endian numbers at fixed offsets:

| record | signature | fixed part |
| --- | --- | ---: |
| header of a member | `PK 03 04` | 30 |
| directory record | `PK 01 02` | 46 |
| end record | `PK 05 06` | 22 |
| wide end record | `PK 06 06` | 56 |
| locator of a wide end record | `PK 06 07` | 20 |

What follows the fixed part has a length that the fixed part tells.
-/

import LiveBuild.Text.Affix
import LiveBuild.Text.Utf8

namespace LiveBuild
namespace Archive

/-- The number that bytes stand for, least significant byte first. -/
def ofLittleEndian (s : Bytes) : Nat := s.foldr (fun b n => b.toNat + 256 * n) 0

/-- The number of `width` bytes at an offset. -/
def littleEndian (width offset : Nat) (s : Bytes) : Nat :=
  ofLittleEndian ((s.drop offset).take width)

/-- A form of records: how they begin, and how long their fixed part is. -/
structure RecordForm where
  signature : Bytes
  length : Nat
  deriving DecidableEq, Repr

namespace RecordForm

/-- The header that stands before the data of a member. -/
def header : RecordForm := ⟨[0x50, 0x4B, 0x03, 0x04], 30⟩

/-- A record of the directory. -/
def directory : RecordForm := ⟨[0x50, 0x4B, 0x01, 0x02], 46⟩

/-- The record at the end of an archive. -/
def ending : RecordForm := ⟨[0x50, 0x4B, 0x05, 0x06], 22⟩

/-- The record before it, with room for large numbers. -/
def wideEnding : RecordForm := ⟨[0x50, 0x4B, 0x06, 0x06], 56⟩

/-- What tells where the wide end record is. -/
def locator : RecordForm := ⟨[0x50, 0x4B, 0x06, 0x07], 20⟩

/-- Whether bytes begin with the signature. -/
def begins (form : RecordForm) (s : Bytes) : Bool := (Text.dropPrefix? form.signature s).isSome

/-- Whether bytes are long enough for the fixed part. -/
def fits (form : RecordForm) (s : Bytes) : Bool := form.length ≤ s.length

/-- The places where the signature stands, each with the bytes from there on; the bytes
begin at `index`. -/
def occurrences (form : RecordForm) : (index : Nat) → Bytes → List (Nat × Bytes)
  | _, [] => []
  | index, b :: s =>
    if form.begins (b :: s) then (index, b :: s) :: form.occurrences (index + 1) s
    else form.occurrences (index + 1) s

/-- The places where the signature stands in a stretch of a file, each with the bytes from
there to the end of the file. -/
def between (form : RecordForm) (file : Bytes) (start stop : Nat) : List (Nat × Bytes) :=
  (form.occurrences start ((file.take stop).drop start)).map fun p => (p.1, file.drop p.1)

end RecordForm

end Archive
end LiveBuild
