/-
# Archives

A zip archive is read from its end.  The end record leads to the directory, the
directory describes the members and leads to their headers, and each header is followed
by the data of its member:

| header, data | … | directory record | … | end record |
| --- | --- | --- | --- | --- |

An archive is the file and the table of its members by name (`Archive`).  Whether a
member can be read shows only when it is read (`Member.read`).
-/

import LiveBuild.Archive.EndRecord

namespace LiveBuild

/-- An archive: the file that holds it, and its members by name. -/
structure Archive where
  file : Bytes
  members : Table String Archive.Member

namespace Archive

/-- The archive that a file holds. -/
def ofBytes (file : Bytes) : Except Fault Archive :=
  (membersOf file none (RecordForm.ending.occurrences 0 file).reverse).map (Archive.mk file)

/-- The names of the members, in the order of the directory. -/
def names (a : Archive) : List String := a.members.keys

/-- The contents of the member with a name. -/
def read? (a : Archive) (name : String) : Option (Except ReadFault Bytes) :=
  (a.members.find? name).map fun m => m.read a.file

end Archive
end LiveBuild
