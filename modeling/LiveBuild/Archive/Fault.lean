/-
# Faults of archives

What keeps an archive from being opened or a member from being read at all is a
`Fault`; what is wrong with the contents of a member that is read is a `Damage`.

| fault | of |
| --- | --- |
| it cannot be read, or it ends too early | archive, member |
| its end record cannot be found, or what it says cannot be | archive |
| it is encrypted, or packed by an unknown method | member |
| its header is not where the directory says | member |
-/

import LiveBuild.Archive.Inflate

namespace LiveBuild
namespace Archive

/-- Why an archive or a member is refused. -/
inductive Fault where
  | inputOutput
  | noEndRecord
  /-- The comment of the end record is longer than the file. -/
  | longComment
  /-- The end record says that the directory begins behind it. -/
  | lateDirectory
  | noDirectory
  /-- The locator says that the wide end record begins behind it. -/
  | lateWideRecord
  | severalDisks
  | noWideRecord
  /-- The wide end record says that it is shorter than its fixed part. -/
  | shortWideRecord
  /-- The wide end record says that it goes on behind its locator. -/
  | longWideRecord
  /-- The wide end record and its locator name different disks. -/
  | wideRecordDisk
  /-- The wide end record says that it ends before its locator. -/
  | wideRecordLength
  /-- There is no room for the directory before the wide end record. -/
  | wideRecordCount
  | encrypted
  /-- A member is not encrypted, though the directory tells its cipher. -/
  | wrongPassword
  | unknownMethod
  | noHeader
  deriving DecidableEq, Repr

namespace Fault

/-- The text about an archive that is none. -/
def invalid (what : String) : String := "invalid Zip archive: " ++ what

/-- The text about an archive that cannot be read here. -/
def unsupported (what : String) : String := "unsupported Zip archive: " ++ what

/-- The text of a fault. -/
def message : Fault → String
  | .inputOutput => "i/o error"
  | .noEndRecord => invalid "Could not find EOCD"
  | .longComment => invalid "EOCD comment exceeds file boundary"
  | .lateDirectory => invalid "Invalid CDFH offset in EOCD"
  | .noDirectory => invalid "No CDFH found"
  | .lateWideRecord => invalid "Invalid EOCD64 Locator CD offset"
  | .severalDisks => invalid "Multi-disk ZIP files are not supported"
  | .noWideRecord => invalid "Could not find EOCD64"
  | .shortWideRecord => invalid "Low EOCD64 record size"
  | .longWideRecord => invalid "EOCD64 extends beyond EOCD64 locator"
  | .wideRecordDisk => invalid "Invalid EOCD64: inconsistency with Locator data"
  | .wideRecordLength => invalid "Invalid EOCD64: inconsistent length"
  | .wideRecordCount => invalid "Invalid EOCD64: inconsistent number of files"
  | .encrypted => unsupported "Password required to decrypt file"
  | .wrongPassword => "provided password is incorrect"
  | .unknownMethod => unsupported "Compression method not supported"
  | .noHeader => invalid "Invalid local file header"

end Fault

/-- What can be wrong with the contents of a member. -/
inductive Damage where
  | badChecksum
  | badStream (fault : Inflate.Fault)
  deriving DecidableEq, Repr

/-- The text of a damage. -/
def Damage.message : Damage → String
  | .badChecksum => "Invalid checksum"
  | .badStream .incomplete => "incomplete deflate stream"
  | .badStream .corrupt => "corrupt deflate stream"

/-- Why a member could not be read. -/
inductive ReadFault where
  | refused (fault : Fault)
  | damaged (damage : Damage)
  deriving DecidableEq, Repr

end Archive
end LiveBuild
