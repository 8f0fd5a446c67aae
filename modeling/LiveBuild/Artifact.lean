/-
# Artifacts

What a toolchain compiles is kept as bytes.  An artifact takes bytes until it is
finalized; from then on it is read-only.

Materializing an artifact gives a loaded one: the image of the bytes, and if they
were loaded as a library, the symbols that the library exports.  An artifact
remembers the loaded artifact that was made of it.
-/

import LiveBuild.Arena
import LiveBuild.Error
import LiveBuild.Kind
import LiveBuild.QualifiedName
import LiveBuild.Text.Quoted

namespace LiveBuild

/-- A materialized artifact. -/
structure LoadedArtifact where
  name : String
  kind : Kind
  /-- The bytes it was made of. -/
  image : Bytes
  /-- The symbols of the library, if it was loaded as one. -/
  exported : Option (List String)
  deriving DecidableEq, Repr, Inhabited

namespace LoadedArtifact

/-- An image that was not loaded as code. -/
def ofImage (name : String) (kind : Kind) (image : Bytes) : LoadedArtifact :=
  ⟨name, kind, image, none⟩

/-- Whether it was loaded as a library. -/
def isLibrary (l : LoadedArtifact) : Bool := l.exported.isSome

/-- Looks a symbol up; only a library has any. -/
def symbol (l : LoadedArtifact) (symbol : String) : Except Error Unit :=
  match l.exported with
  | none => .error (.materialization l.name "artifact was not materialized as a library")
  | some symbols => if symbols.contains symbol then .ok () else .error .libraryLoad

/-- A loaded artifact as a developer reads it. -/
def debugText (l : LoadedArtifact) : String :=
  "LoadedArtifact \x7b name: " ++ Text.quoted l.name ++ ", kind: " ++ l.kind.label ++
    ", image_len: " ++ toString l.image.length ++ ", library: " ++ toString l.isLibrary ++ " \x7d"

end LoadedArtifact

/-- Bytes compiled under a name. -/
structure Artifact where
  name : String
  kind : Kind
  bytes : Bytes
  isFinalized : Bool
  /-- What was materialized from it. -/
  loaded : Option (Ref LoadedArtifact)
  deriving DecidableEq, Inhabited

namespace Artifact

/-- An artifact without bytes. -/
def new (name : String) (kind : Kind) : Artifact := ⟨name, kind, [], false, none⟩

/-- The artifact with more bytes at its end, unless it is read-only. -/
def write (a : Artifact) (bytes : Bytes) : Except Error Artifact :=
  if a.isFinalized then .error (.artifactFinalized a.name)
  else .ok { a with bytes := a.bytes ++ bytes }

/-- **A write succeeds exactly while the artifact is not finished,** and appends its bytes. -/
theorem write_eq_ok_iff {a b : Artifact} {bytes : Bytes} :
    a.write bytes = .ok b ↔ a.isFinalized = false ∧ b = { a with bytes := a.bytes ++ bytes } := by
  unfold write
  cases a.isFinalized <;> simp [eq_comm]

/-- The artifact made read-only. -/
def finalize (a : Artifact) : Artifact := { a with isFinalized := true }

/-- The name of the artifact as a path from the root of its tree. -/
def pathName (a : Artifact) : String :=
  "/" ++ QualifiedName.toPath a.name ++ a.kind.extension

end Artifact
end LiveBuild
