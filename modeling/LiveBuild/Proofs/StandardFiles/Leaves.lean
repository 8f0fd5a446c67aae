/-
# What a listing goes through

A listing of standard files goes through the entries of directories in increasing order of their
names and picks, from those that are no directories, the files of the kinds asked for.  What it
goes through does not depend on the kinds: it is a list of leaves, each with the package of the
directory that it is in.

| a listing of | picks from |
| --- | --- |
| one directory | `leaves`, with or without those of the directories in it |
| a package at a location | `leavesOf`, the leaves of its directories under all roots |

So a listing of standard files always succeeds, and the kinds only filter (`list_eq`).
-/

import LiveBuild.Proofs.FileSystem.Children
import LiveBuild.StandardFiles.Directories

namespace LiveBuild
namespace Directories

open QualifiedName

/-- An entry of a directory that is no directory itself. -/
structure Leaf where
  /-- The package that the directory is. -/
  package : String
  path : Path
  name : FileName

/-- The file that a leaf is, if it is of one of the kinds. -/
def Leaf.file? (kinds : List Kind) (l : Leaf) : Option FileHandle :=
  fileAt? kinds l.package l.path l.name

/-- The names in a directory in increasing order; none if it is no directory. -/
def entriesIn (fs : FileSystem) (dir : Path) : List FileName :=
  inOrder ((fs.readDirectory dir).toOption.getD [])

/-- The leaves of a directory that is the package `package`, in the order of a listing. -/
def leaves (fs : FileSystem) (recurse : Bool) (dir : Path) (package : String) : List Leaf :=
  (entriesIn fs dir).flatMap fun n =>
    if _h : fs.isDirectory (dir.child n.text) then
      if recurse then leaves fs recurse (dir.child n.text) (member package n.text) else []
    else [⟨package, dir.child n.text, n⟩]
termination_by FileSystem.maxPathBytes - dir.text.utf8ByteSize
decreasing_by
  have h₁ := bytes_lt_child dir n
  have h₂ := FileSystem.bytes_lt_of_isDirectory _h
  omega

/-- The leaves of a package under all roots of a location. -/
def leavesOf (d : Directories) (fs : FileSystem) (location : Location) (package : String)
    (recurse : Bool) : List Leaf :=
  (d.rootsOf location).flatMap fun root => leaves fs recurse (root.join (toPath package)) package

variable {fs : FileSystem} {kinds : List Kind} {recurse : Bool} {dir root : Path}
  {package : String}

/-- The entries of a directory are its names in order. -/
theorem entriesIn_of_ok {names : List FileName} (h : fs.readDirectory dir = .ok names) :
    entriesIn fs dir = inOrder names := by
  rw [entriesIn, h]
  rfl

/-- What cannot be listed has no entries. -/
theorem entriesIn_of_error {e : OsError} (h : fs.readDirectory dir = .error e) :
    entriesIn fs dir = [] := by
  rw [entriesIn, h]
  exact List.mergeSort_nil

/-- Every entry of a directory is gone through once. -/
theorem nodup_entriesIn (fs : FileSystem) (dir : Path) : (entriesIn fs dir).Nodup := by
  cases h : fs.readDirectory dir with
  | error e =>
    rw [entriesIn_of_error h]
    exact List.nodup_nil
  | ok names =>
    rw [entriesIn_of_ok h]
    exact (List.mergeSort_perm _ _).nodup_iff.2 (FileSystem.nodup_of_readDirectory h)

/-- **What a name in a directory leads to, is among its entries.** -/
theorem mem_entriesIn_of_isDirectory (hdir : fs.isDirectory dir = true) {n : FileName}
    (h : fs.isDirectory (dir.child n.text) = true) : n ∈ entriesIn fs dir := by
  obtain ⟨a, ha⟩ := FileSystem.isDirectory_iff.1 h
  have hnonempty := FileSystem.nonempty_of_isDirectory hdir
  obtain ⟨names, -, hnames, hn⟩ := FileSystem.readDirectory_of_target?_child hnonempty ha
  rw [entriesIn_of_ok hnames]
  exact List.mem_mergeSort.2 hn

/-- What is no directory has no leaves. -/
theorem leaves_of_not_isDirectory (h : ¬ fs.isDirectory dir = true) :
    leaves fs recurse dir package = [] := by
  have hentries : entriesIn fs dir = [] := by
    cases hread : fs.readDirectory dir with
    | error e => exact entriesIn_of_error hread
    | ok names =>
      obtain ⟨a, ha, -⟩ := FileSystem.readDirectory_eq_ok_iff.1 hread
      exact absurd (FileSystem.isDirectory_iff.2 ⟨a, ha⟩) h
  rw [leaves, hentries, List.flatMap_nil]

/-- **A directory is listed by picking from its leaves.** -/
theorem listDirectory_eq (h : fs.isDirectory dir = true) :
    listDirectory fs kinds recurse dir package =
      .ok ((leaves fs recurse dir package).filterMap (Leaf.file? kinds)) := by
  fun_induction leaves fs recurse dir package with
  | case1 dir package ih =>
    obtain ⟨names, hnames, -⟩ := FileSystem.exists_readDirectory_of_isDirectory h
    rw [listDirectory, hnames, entriesIn_of_ok hnames, List.filterMap_flatMap]
    refine gather_eq_flatMap fun n _ => ?_
    by_cases hdir : fs.isDirectory (dir.child n.text) = true
    · by_cases hrec : recurse = true
      · simp only [dif_pos hdir, if_pos hrec]
        exact ih n hdir hdir
      · simp only [dif_pos hdir, if_neg hrec, List.filterMap_nil]
    · simp only [dif_neg hdir]
      rfl

/-- Under one root a listing picks from the leaves of the package's directory there. -/
theorem listRoot_eq :
    listRoot fs package kinds recurse root =
      .ok ((leaves fs recurse (root.join (toPath package)) package).filterMap
        (Leaf.file? kinds)) := by
  rw [listRoot]
  split
  · rename_i hdir
    exact listDirectory_eq hdir
  · rename_i hdir
    rw [leaves_of_not_isDirectory hdir, List.filterMap_nil]

/-- **A listing succeeds, and picks from the leaves of the package.** -/
theorem list_eq (d : Directories) (fs : FileSystem) (location : Location) (package : String)
    (kinds : List Kind) (recurse : Bool) :
    d.list fs location package kinds recurse =
      .ok ((d.leavesOf fs location package recurse).filterMap (Leaf.file? kinds)) := by
  rw [list, leavesOf, List.filterMap_flatMap]
  exact gather_eq_flatMap fun root _ => listRoot_eq

/-- What is listed are standard files. -/
theorem artifact_notMem_list {d : Directories} {location : Location} {files : List FileHandle}
    (h : d.list fs location package kinds recurse = .ok files) (r : Ref Artifact) :
    .artifact r ∉ files := by
  rw [list_eq, Except.ok.injEq] at h
  subst h
  rw [List.mem_filterMap]
  rintro ⟨l, -, hl⟩
  obtain ⟨⟨kind, stem⟩, -, he⟩ := Option.map_eq_some_iff.1 hl
  cases he

end Directories
end LiveBuild
