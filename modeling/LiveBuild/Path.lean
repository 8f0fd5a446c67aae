/-
# Paths

A path is kept as the text it was written as; joining never tidies it.

| left | right | joined |
| --- | --- | --- |
| `a` | `b/c` | `a/b/c` |
| `a/` | `b` | `a/b` |
| `a` | `/b` | `/b` |
| `a` | | `a/` |

A path is walked component by component.  Empty components and `.` stay where
they are, `..` goes up, and every other component is a file name.  Two paths are
the same if they differ only in components that stay; a `.` at the beginning of
a relative path is the one such component that counts.
-/

import LiveBuild.Text.Affix

namespace LiveBuild

/-- The name of a file in its directory: one component, and one that leads away. -/
structure FileName where
  text : String
  nonempty : text ≠ ""
  noSlash : '/' ∉ text.toList
  notHere : text ≠ "."
  notUp : text ≠ ".."
  deriving DecidableEq, Repr

/-- One step of a walk. -/
inductive Component where
  | here
  | up
  | name (n : FileName)
  deriving DecidableEq

namespace Component

/-- The component that a piece of a path's text denotes. -/
def ofText (s : String) (hs : '/' ∉ s.toList) : Component :=
  if h : s = "" then .here
  else if h' : s = "." then .here
  else if h'' : s = ".." then .up
  else .name ⟨s, h, hs, h', h''⟩

/-- A piece that is a file name denotes that name. -/
theorem ofText_fileName (n : FileName) : ofText n.text n.noSlash = .name n := by
  simp [ofText, n.nonempty, n.notHere, n.notUp]

end Component

/-- A path, as written. -/
structure Path where
  text : String
  deriving DecidableEq, Repr, Inhabited

namespace Path

/-- Whether a path begins at the root. -/
def isAbsolute (p : Path) : Bool := Text.startsWith "/" p.text

/-- The path of `name` in the directory `p`. -/
def child (p : Path) (name : String) : Path :=
  if p.text = "" ∨ Text.endsWith "/" p.text then ⟨p.text ++ name⟩ else ⟨p.text ++ "/" ++ name⟩

/-- The path that `right` denotes seen from `p`: an absolute one replaces `p`. -/
def join (p : Path) (right : String) : Path :=
  if Text.startsWith "/" right then ⟨right⟩ else p.child right

/-- The pieces of a path between its slashes. -/
def pieces (p : Path) : List String := (Text.pieces '/' p.text.toList).map String.ofList

/-- No piece of a path has a slash in it, so each of them denotes a component. -/
theorem noSlash_of_mem_pieces {p : Path} {s : String} (h : s ∈ p.pieces) : '/' ∉ s.toList := by
  obtain ⟨q, hq, rfl⟩ := List.mem_map.1 h
  rw [String.toList_ofList]
  exact Text.notMem_of_mem_pieces hq

/-- The steps of a walk along a path. -/
def components (p : Path) : List Component :=
  p.pieces.pmap Component.ofText fun _ => noSlash_of_mem_pieces

/-- The steps of a path that lead away from where they start. -/
def moves (p : Path) : List Component := p.components.filter (· ≠ .here)

/-- Whether a relative path begins with the component `.`. -/
def beginsHere (p : Path) : Bool := p.pieces.head? == some "."

/-- Whether two paths differ at most in components that stay where they are. -/
def same (p q : Path) : Bool :=
  p.isAbsolute == q.isAbsolute && p.beginsHere == q.beginsHere && p.moves == q.moves

end Path
end LiveBuild
