/-
# Kinds of files

What a file holds that passes between a toolchain and its surroundings.  Each
kind but the last has a file extension of its own.

| kind | extension |
| --- | --- |
| source text | `.rs` |
| compiled artifact | `.class` |
| documentation | `.html` |
| anything else | none |
-/

namespace LiveBuild

/-- The extension of artifact files unless another one is chosen. -/
def defaultExtension : String := ".class"

/-- What a file holds. -/
inductive Kind where
  | source
  | compiled
  | html
  | other
  deriving DecidableEq, Repr, Inhabited

namespace Kind

/-- The file extension of a kind with its dot, empty for a kind without one. -/
def extension : Kind → String
  | .source => ".rs"
  | .compiled => defaultExtension
  | .html => ".html"
  | .other => ""

/-- The name of a kind as a developer reads it. -/
def label : Kind → String
  | .source => "Source"
  | .compiled => "Compiled"
  | .html => "Html"
  | .other => "Other"

end Kind
end LiveBuild
