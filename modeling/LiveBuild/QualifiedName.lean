/-
# Qualified names

Units and artifacts have names such as `app.model.User`.  The part before the
last dot is the package, `app.model`, and the default package has the empty name.
On disk and in archives the dots are slashes.

| name | package | path |
| --- | --- | --- |
| `app.model.User` | `app.model` | `app/model/User` |
| `User` | | `User` |
-/

import LiveBuild.Text.Affix

namespace LiveBuild
namespace QualifiedName

/-- A dotted name as a relative path. -/
def toPath (name : String) : String := Text.exchange '.' '/' name

/-- A relative path as a dotted name. -/
def ofPath (path : String) : String := Text.exchange '/' '.' path

/-- The part of a name before its last dot, empty if there is no dot. -/
def package (name : String) : String :=
  String.ofList ((name.toList.reverse.dropWhile (· ≠ '.')).drop 1).reverse

/-- The name of `stem` in a package. -/
def member (package stem : String) : String :=
  if package.isEmpty then stem else package ++ "." ++ stem

end QualifiedName
end LiveBuild
