/-
# Class paths

An ordered list of directories and archives.  A name is looked for under its path,
the dots turned into slashes and the extension appended, and the first entry that
does not miss decides, be its answer bytes or an error.

What was loaded is remembered by name: a name that was found once is answered from
there and the entries are not looked at again.  A miss and an error are not
remembered.
-/

import LiveBuild.Archive.File
import LiveBuild.Gather
import LiveBuild.Host
import LiveBuild.Materializer

namespace LiveBuild

/-- One entry of a class path. -/
inductive ClassPathEntry where
  | directory (path : Path)
  | archive (path : Path)
  deriving DecidableEq, Repr

namespace ClassPathEntry

/-- The bytes at a relative path, or nothing if the entry misses. -/
def read? (fs : FileSystem) (relative : String) : ClassPathEntry → Except Error (Option Bytes)
  | .directory path =>
    if fs.isFile (path.join relative) then
      match fs.read (path.join relative) with
      | .ok bytes => .ok (some bytes)
      | .error e => .error (.io (.os e))
    else .ok none
  | .archive path => Archive.readMember? fs path relative

/-- The root that the entry has for a package, if it has any. -/
def resources (fs : FileSystem) (package : String) :
    ClassPathEntry → Except Error (List ResourceRoot)
  | .directory path =>
    if fs.isDirectory (path.join package) then .ok [.directory (path.join package)] else .ok []
  | .archive path =>
    match Archive.openAt fs path with
    | .error e => .error e
    | .ok a =>
      if a.names.any (Text.startsWith (package ++ "/")) then .ok [.archive path package] else .ok []

end ClassPathEntry

/-- A host over directories and archives. -/
structure ClassPath where
  entries : List ClassPathEntry
  /-- The extension of artifact files, with its dot. -/
  extension : String
  materializer : Materializer
  /-- What was loaded so far. -/
  cache : Ref LoadedTable

namespace ClassPath

/-- A class path that has loaded nothing yet. -/
def new (entries : List ClassPathEntry) (extension : String) (materializer : Materializer)
    (s : Store) : ClassPath × Store :=
  (⟨entries, extension, materializer, s.newCache.1⟩, s.newCache.2)

/-- The first answer that is not a miss. -/
def firstHit (fs : FileSystem) (relative : String) :
    List ClassPathEntry → Except Error (Option Bytes)
  | [] => .ok none
  | entry :: entries =>
    match entry.read? fs relative with
    | .ok none => firstHit fs relative entries
    | answer => answer

/-- Where the artifact of a name is, relative to an entry. -/
def relativePath (c : ClassPath) (name : String) : String :=
  QualifiedName.toPath name ++ c.extension

/-- The bytes of a name in the first entry that has it. -/
def read? (c : ClassPath) (fs : FileSystem) (name : String) : Except Error (Option Bytes) :=
  firstHit fs (c.relativePath name) c.entries

/-- The loaded artifact of a name. -/
def find? (c : ClassPath) (name : String) : Action (Option (Ref LoadedArtifact)) := fun s =>
  match (s.caches.get c.cache).find? name with
  | some h => .ok (some h) s
  | none =>
    match c.read? s.files name with
    | .error e => .error e s
    | .ok none => .ok none s
    | .ok (some bytes) =>
      match c.materializer.load ⟨name, .compiled, bytes⟩ s with
      | .error e s => .error e s
      | .ok h s =>
        .ok (some h) { s with caches := s.caches.modify c.cache fun t => t.insert name h }

/-- The roots of a package, in the order of the entries. -/
def resources (c : ClassPath) (package : String) (fs : FileSystem) :
    Except Error (List ResourceRoot) :=
  gather (ClassPathEntry.resources fs package) c.entries

/-- The class path as a host. -/
def toHost (c : ClassPath) : Host := ⟨c.find?, c.resources⟩

end ClassPath
end LiveBuild
