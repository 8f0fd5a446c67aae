/-
# Events of a build

What a toolchain may write into its journal while it works, in the order in which
it happened.
-/

import LiveBuild.Error

namespace LiveBuild

/-- An entry of a toolchain's journal. -/
inductive Event where
  /-- A build began with these options. -/
  | options (options : List String)
  /-- A round of units with these names began. -/
  | round (units : List String)
  /-- A listing gave files with these qualified names. -/
  | listed (names : List (Option String))
  /-- A name was looked up, with this image as the answer. -/
  | resolved (image : Option Bytes)
  /-- A unit ended the build with this error. -/
  | failed (error : Error)

end LiveBuild
