/-
# Standard files

The platform's own files: what there is at a location, how such a file is called,
and when two handles are the same file.
-/

import LiveBuild.FileHandle
import LiveBuild.Location

namespace LiveBuild

/-- The platform's own file resolution. -/
structure StandardFiles where
  /-- The files of some kinds in a package at a location, with or without its sub-packages. -/
  list : FileSystem → Location → (package : String) → List Kind → (recurse : Bool) →
    Except Error (List FileHandle)
  /-- The qualified name of a file. -/
  binaryName : Location → FileHandle → Option String
  /-- Whether two handles are the same file. -/
  same : FileHandle → FileHandle → Bool

end LiveBuild
