/-
# Locations

The search paths that a toolchain distinguishes.  Two of them belong to the
platform: what is found there comes from the standard files alone.
-/

namespace LiveBuild

/-- Where a toolchain reads from or writes to. -/
inductive Location where
  | platformClassPath
  | systemModules
  | classPath
  | sourcePath
  | classOutput
  | sourceOutput
  | other (name : String)
  deriving DecidableEq, Repr

namespace Location

/-- Whether a location belongs to the platform. -/
def isProtected : Location → Bool
  | .platformClassPath | .systemModules => true
  | _ => false

/-- The name of a location. -/
def display : Location → String
  | .platformClassPath => "PLATFORM_CLASS_PATH"
  | .systemModules => "SYSTEM_MODULES"
  | .classPath => "CLASS_PATH"
  | .sourcePath => "SOURCE_PATH"
  | .classOutput => "CLASS_OUTPUT"
  | .sourceOutput => "SOURCE_OUTPUT"
  | .other name => name

end Location
end LiveBuild
