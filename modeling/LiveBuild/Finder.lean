/-
# Package listings

What a host has for a package, one level deep: for each root of the package a
block of artifacts in increasing order of their names.

| root | an artifact for | its name |
| --- | --- | --- |
| directory | each file in it (links followed) that ends with the extension | the package, a dot, and the file name without the extension |
| archive | each member that is the root's path, a slash, and a rest without slashes that ends with the extension | the member's path without the extension, slashes turned into dots |

A root that cannot be read fails the whole listing.
-/

import LiveBuild.Archive.File
import LiveBuild.Gather
import LiveBuild.Host

namespace LiveBuild

/-- Where the bytes of an artifact are. -/
inductive ArtifactPlace where
  | file (path : Path)
  | member (archive : Path) (entry : String)
  deriving DecidableEq, Repr

namespace ArtifactPlace

/-- Whether two places are the same. -/
def same : ArtifactPlace → ArtifactPlace → Bool
  | .file p, .file q => p.same q
  | .member p a, .member q b => p.same q && a == b
  | _, _ => false

end ArtifactPlace

/-- An artifact that a host has. -/
structure ResolvedArtifact where
  binaryName : String
  place : ArtifactPlace
  deriving DecidableEq, Repr

namespace ResolvedArtifact

/-- The path of the file, or of the member in its archive. -/
def pathName (r : ResolvedArtifact) : String :=
  match r.place with
  | .file path => path.text
  | .member _ entry => entry

/-- Whether two artifacts have the same name and place. -/
def same (r t : ResolvedArtifact) : Bool := r.binaryName == t.binaryName && r.place.same t.place

/-- The bytes of an artifact. -/
def read (r : ResolvedArtifact) (fs : FileSystem) : Except Error Bytes :=
  match r.place with
  | .file path =>
    match fs.read path with
    | .ok bytes => .ok bytes
    | .error e => .error (.io (.os e))
  | .member archive entry =>
    match Archive.readMember? fs archive entry with
    | .ok (some bytes) => .ok bytes
    | .ok none => .error (.artifactNotFound (Archive.place archive entry))
    | .error e => .error e

end ResolvedArtifact

/-- Lists the packages of a host. -/
structure Finder where
  host : Host
  /-- The extension of artifact files, with its dot. -/
  extension : String

namespace Finder

/-- Artifacts in increasing order of their names. -/
def inOrder (rs : List ResolvedArtifact) : List ResolvedArtifact :=
  rs.mergeSort fun r t => decide (r.binaryName ≤ t.binaryName)

/-- The artifact that a file in a directory is, if it is one. -/
def fileArtifact? (f : Finder) (fs : FileSystem) (package : String) (dir : Path) (n : FileName) :
    Option ResolvedArtifact :=
  let path := dir.child n.text
  if fs.isFile path then
    (Text.beforeEnd? f.extension n.text).map fun stem =>
      ⟨QualifiedName.member package stem, .file path⟩
  else none

/-- The artifact that a member of an archive is, if it is one directly under `root`. -/
def memberArtifact? (f : Finder) (archive : Path) (root name : String) :
    Option ResolvedArtifact := do
  let rest ← Text.afterStart? root name
  if '/' ∈ rest.toList ∨ ¬ Text.endsWith f.extension rest then none
  else
    let path := (Text.beforeEnd? f.extension name).getD name
    return ⟨QualifiedName.ofPath path, .member archive name⟩

/-- The artifacts of one root. -/
def listRoot (f : Finder) (fs : FileSystem) (package : String) :
    ResourceRoot → Except Error (List ResolvedArtifact)
  | .directory dir =>
    match fs.readDirectory dir with
    | .error e => .error (.resolution dir.text (.os e))
    | .ok names => .ok (inOrder (names.filterMap (f.fileArtifact? fs package dir)))
  | .archive path parent =>
    match Archive.openAt fs path with
    | .error e => .error e
    | .ok a =>
      let root := Text.withoutTrailing '/' parent ++ "/"
      .ok (inOrder (a.names.filterMap (f.memberArtifact? path root)))

/-- The artifacts of a package. -/
def find (f : Finder) (fs : FileSystem) (package : String) :
    Except Error (List ResolvedArtifact) :=
  match f.host.resources (QualifiedName.toPath package) fs with
  | .error e => .error e
  | .ok roots => gather (f.listRoot fs package) roots

end Finder
end LiveBuild
