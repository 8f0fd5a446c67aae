/-
# Members of an archive

The directory of an archive describes a member: its name, how it is packed, its
checksum, and where its header is.  The data follow the header, which says itself how
long it is:

| offset in the header | what |
| ---: | --- |
| 26 | length of the name |
| 28 | length of the extra fields |
| 30 | name, extra fields, data |

| method | contents |
| ---: | --- |
| 0 | the data as they are |
| 8 | the data inflated |

Reading finds out, in this order, whether the member is encrypted, whether its header is
where it should be, whether it is packed by another method, whether there is a cipher
though it is not encrypted, and whether the contents have the checksum they should have.
-/

import LiveBuild.Archive.Checksum
import LiveBuild.Archive.Fault
import LiveBuild.Archive.Record

namespace LiveBuild
namespace Archive

/-- A member as the directory describes it. -/
structure Member where
  name : String
  /-- The bytes of which the name was made. -/
  rawName : Bytes
  comment : String
  isEncrypted : Bool
  /-- Whether the directory tells by which cipher the member is encrypted. -/
  hasCipher : Bool
  method : Nat
  checksum : UInt32
  /-- How long the data are. -/
  packedSize : Nat
  /-- How long the contents should be. -/
  size : Nat
  /-- Where the header is, counted from the beginning of the archive. -/
  header : Nat
  deriving DecidableEq, Repr

namespace Member

/-- What follows a header, of which the name and the extra fields are left out. -/
def behindHeader (s : Bytes) : Bytes :=
  s.drop (RecordForm.header.length + littleEndian 2 26 s + littleEndian 2 28 s)

/-- The data of a member, whose header the file has at an offset. -/
def data (m : Member) (file : Bytes) : Except Fault Bytes :=
  let header := file.drop m.header
  if m.isEncrypted then .error .encrypted
  else if !RecordForm.header.fits header then .error .inputOutput
  else if !RecordForm.header.begins header then .error .noHeader
  else .ok ((behindHeader header).take m.packedSize)

/-- The contents that data stand for, checksum not looked at. -/
def unpack (m : Member) (data : Bytes) : Except ReadFault Bytes :=
  if m.method ≠ 0 ∧ m.method ≠ 8 then .error (.refused .unknownMethod)
  else if m.hasCipher then .error (.refused .wrongPassword)
  else if m.method = 0 then .ok data
  else (inflate data).mapError fun fault => .damaged (.badStream fault)

/-- Contents that have the checksum they should have. -/
def verify (m : Member) (contents : Bytes) : Except ReadFault Bytes :=
  if Checksum.crc32 contents = m.checksum then .ok contents else .error (.damaged .badChecksum)

/-- The contents of a member. -/
def read (m : Member) (file : Bytes) : Except ReadFault Bytes := do
  let data ← (m.data file).mapError .refused
  m.verify (← m.unpack data)

end Member

end Archive
end LiveBuild
