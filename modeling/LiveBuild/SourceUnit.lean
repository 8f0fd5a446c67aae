/-
# Source units

A unit of source text with a qualified name.  A caller's unit has its text from
the start; one that a toolchain asked for in the middle of a build is pending
until its text is written, which happens once.
-/

import LiveBuild.Error
import LiveBuild.Kind
import LiveBuild.QualifiedName

namespace LiveBuild

/-- A unit of source text. -/
structure SourceUnit where
  name : String
  /-- The text, or nothing while it is still to be written. -/
  content : Option String
  deriving DecidableEq, Repr, Inhabited

namespace SourceUnit

/-- A unit whose text is still to be written. -/
def pending (name : String) : SourceUnit := ⟨name, none⟩

/-- Whether the text is still to be written. -/
def isPending (u : SourceUnit) : Bool := u.content.isNone

/-- The name of the unit as a path from the root of its tree. -/
def pathName (u : SourceUnit) : String :=
  "/" ++ QualifiedName.toPath u.name ++ Kind.source.extension

/-- The unit with its text written, if it had none. -/
def writeText (u : SourceUnit) (text : String) : Except Error SourceUnit :=
  match u.content with
  | none => .ok { u with content := some text }
  | some _ => .error (.sourceAlreadyWritten u.name)

/-- The unit with the text that bytes encode.  Bytes that are no text are refused before
it is asked whether the unit can still be written. -/
def write (u : SourceUnit) (bytes : Bytes) : Except Error SourceUnit :=
  match Text.Utf8.decode bytes with
  | .error fault => .error (.invalidSource (.notText u.name fault))
  | .ok text => u.writeText text

/-- The bytes of a unit's text. -/
def read (u : SourceUnit) : Except Error Bytes :=
  match u.content with
  | some text => .ok (Text.Utf8.encode text)
  | none => .error (.invalidSource (.unwritten u.name))

end SourceUnit
end LiveBuild
