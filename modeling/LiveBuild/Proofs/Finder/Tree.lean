/-
# Trees of files

A tree of files is known by the relative paths of its files, none of which has a piece that is
empty, stays or goes up (`IsRelative`).  It may be in a directory or in an archive:

| the tree is in | if |
| --- | --- |
| a directory | the relative paths that can be read there are those of the tree, with its contents |
| an archive | so are the names that the archive has |

Whether a tree is in a directory can be found out by looking at every entry of the file system,
as long as there are no links (`FileTree.inDirectory_of_holds`).  It is in the archive that is
packed of it (`FileTree.inArchive_pack`).
-/

import LiveBuild.Archive.File
import LiveBuild.Gather
import LiveBuild.Proofs.Archive.Packed
import LiveBuild.Proofs.FileSystem.Children

namespace LiveBuild

/-- A path that leads down from where it is read. -/
def IsRelative (name : String) : Prop :=
  ∀ s ∈ (Path.mk name).pieces, s ≠ "" ∧ s ≠ "." ∧ s ≠ ".."

instance (name : String) : Decidable (IsRelative name) :=
  inferInstanceAs (Decidable (∀ s ∈ (Path.mk name).pieces, _))

/-- Two relative paths with a slash between them are a relative path. -/
theorem isRelative_slash_iff {q r : String} :
    IsRelative (q ++ "/" ++ r) ↔ IsRelative q ∧ IsRelative r := by
  rw [IsRelative, Path.pieces_slash, List.forall_mem_append, IsRelative, IsRelative]

/-- A file name is a relative path. -/
theorem isRelative_fileName (n : FileName) : IsRelative n.text := by
  rw [IsRelative, Path.pieces_of_noSlash n.noSlash, List.forall_mem_singleton]
  exact ⟨n.nonempty, n.notHere, n.notUp⟩

namespace IsRelative

variable {name : String}

/-- A relative path without slashes is a file name. -/
theorem exists_fileName (h : IsRelative name) (hslash : '/' ∉ name.toList) :
    ∃ n : FileName, n.text = name := by
  rw [IsRelative, Path.pieces_of_noSlash hslash, List.forall_mem_singleton] at h
  exact ⟨⟨name, h.1, hslash, h.2.1, h.2.2⟩, rfl⟩

/-- A relative path does not begin with a slash. -/
theorem startsWith_slash (h : IsRelative name) : Text.startsWith "/" name = false := by
  rw [Bool.eq_false_iff, ne_eq, Text.startsWith_iff]
  rintro ⟨r, rfl⟩
  have hempty : IsRelative "" := by
    rw [← String.empty_append (s := "/")] at h
    exact (isRelative_slash_iff.1 h).1
  exact absurd hempty (by decide)

end IsRelative

/-- The relative path along file names. -/
def relativePath (ns : List FileName) : String :=
  String.ofList (['/'].intercalate (ns.map fun n => n.text.toList))

namespace Text

/-- The pieces with the separator between them are the whole. -/
theorem intercalate_pieces (a : Char) (s : List Char) : [a].intercalate (pieces a s) = s := by
  induction s with
  | nil => rfl
  | cons c s ih =>
    obtain ⟨p, ps, hp⟩ := List.exists_cons_of_ne_nil (pieces_ne_nil a s)
    rw [hp] at ih
    by_cases hc : c = a
    · rw [pieces, if_pos hc, hp, hc, ← ih]
      rfl
    · rw [pieces, if_neg hc, hp, ← ih]
      cases ps <;> rfl

end Text

/-- **A relative path leads along file names.** -/
theorem IsRelative.exists_names {name : String} (h : IsRelative name) :
    ∃ ns : List FileName, (Path.mk name).components = ns.map .name ∧ name = relativePath ns := by
  have hnames : ∀ (ss : List String) (hss : ∀ s ∈ ss, '/' ∉ s.toList),
      (∀ s ∈ ss, s ≠ "" ∧ s ≠ "." ∧ s ≠ "..") →
        ∃ ns : List FileName, ss.pmap Component.ofText hss = ns.map .name ∧
          ss = ns.map (·.text) := by
    intro ss hss hdown
    induction ss with
    | nil => exact ⟨[], rfl, rfl⟩
    | cons s ss ih =>
      rw [List.forall_mem_cons] at hdown
      obtain ⟨ns, hns, htexts⟩ := ih (fun t ht => hss t (List.mem_cons_of_mem _ ht)) hdown.2
      let n : FileName := ⟨s, hdown.1.1, hss s List.mem_cons_self, hdown.1.2.1, hdown.1.2.2⟩
      refine ⟨n :: ns, ?_, by rw [List.map_cons, ← htexts]⟩
      rw [List.pmap_cons, List.map_cons, hns]
      exact congrArg (· :: _) (Component.ofText_fileName n)
  obtain ⟨ns, hns, htexts⟩ := hnames _ (fun _ => Path.noSlash_of_mem_pieces) h
  refine ⟨ns, hns, ?_⟩
  have hlists : ns.map (fun n => n.text.toList) = Text.pieces '/' name.toList := by
    have hmap := congrArg (List.map String.toList) htexts
    simpa [Path.pieces, Function.comp_def] using hmap.symm
  rw [relativePath, hlists, Text.intercalate_pieces, String.ofList_toList]

namespace FileSystem

variable {fs : FileSystem}

/-- What leads to a file is what can be read. -/
theorem isFile_iff {p : Path} : fs.isFile p = true ↔ ∃ content, fs.read p = .ok content := by
  refine ⟨exists_read_of_isFile, ?_⟩
  rintro ⟨content, h⟩
  unfold read at h
  split at h
  · rename_i htarget
    simp only [isFile, htarget]
  · cases h
  · cases h

/-- There are no links. -/
def HasNoLinks (fs : FileSystem) : Prop := ∀ a target, fs.entry? a ≠ some (.link target)

/-- **Without links, names lead along themselves.** -/
theorem eq_of_walk_names (h : fs.HasNoLinks) {links : Nat} {a : Address} {ns : List FileName}
    {r : Address × Nat} (hwalk : fs.walk links a (ns.map .name) = .ok r) : r.1 = a ++ ns := by
  obtain ⟨follow, hsteps⟩ := fs.exists_walk_eq_steps links
  rw [hsteps] at hwalk
  induction ns generalizing a with
  | nil =>
    rw [List.map_nil, steps] at hwalk
    cases hwalk
    simp
  | cons n ns ih =>
    rw [List.map_cons, steps] at hwalk
    split at hwalk
    · cases hwalk
    · cases hwalk
    · cases hwalk
    · split at hwalk
      · cases hwalk
      · split at hwalk
        · cases hwalk
        · rename_i target hlink
          exact absurd hlink (h _ target)
        · simpa using ih hwalk

/-- **Without links, file names lead from a directory to what is below it.** -/
theorem eq_of_resolve_child (h : fs.HasNoLinks) {dir : Path} {name : String} {ns : List FileName}
    (hname : (Path.mk name).components = ns.map .name) {a b : Address}
    (hdir : fs.resolve dir = .ok a) (hchild : fs.resolve (dir.child name) = .ok b) :
    b = a ++ ns := by
  obtain ⟨-, -, -, links, hdir⟩ := resolve_eq_ok_iff.1 hdir
  obtain ⟨-, -, -, links', hchild⟩ := resolve_eq_ok_iff.1 hchild
  obtain ⟨cs, hcomponents, hcs⟩ := dir.components_child name
  rw [hcomponents, hname, walk_append] at hchild
  cases hwalk : fs.walk maxLinks [] cs with
  | error e =>
    rw [hwalk] at hchild
    cases hchild
  | ok r =>
    rw [hwalk] at hchild
    have ha : a = r.1 := by
      rcases hcs with hcs | hcs
      · rw [hcs, hwalk] at hdir
        cases hdir
        rfl
      · rw [hcs, walk_append, hwalk] at hdir
        exact eq_of_walk_here hdir
    rw [ha]
    exact eq_of_walk_names h hchild

end FileSystem

/-- A finite tree of files, by their relative paths. -/
structure FileTree where
  files : Table String Bytes
  relative : ∀ name ∈ files.keys, IsRelative name

namespace FileTree

variable {t : FileTree} {fs : FileSystem} {dir : Path} {name : String} {content : Bytes}

/-- Only relative paths are in a tree. -/
theorem isRelative_of_find? (h : t.files.find? name = some content) : IsRelative name :=
  t.relative name ((t.files.find?_isSome_iff name).1 (by rw [h, Option.isSome_some]))

/-- The tree is what can be read in a directory.  The empty path is no directory, though files can
be read that are seen from it. -/
structure InDirectory (t : FileTree) (fs : FileSystem) (dir : Path) : Prop where
  nonempty : dir.text ≠ ""
  read_iff : ∀ name, IsRelative name → ∀ content,
    fs.read (dir.join name) = .ok content ↔ t.files.find? name = some content

/-- The tree is what an archive has. -/
def InArchive (t : FileTree) (fs : FileSystem) (path : Path) : Prop :=
  ∃ a, Archive.openAt fs path = .ok a ∧
    ∀ name, a.read? name = (t.files.find? name).map .ok

/-- Whether no entry is a link and every file below an address is in the tree. -/
def holds (t : FileTree) (fs : FileSystem) (a : Address) : Bool :=
  fs.entries.entries.all fun e =>
    match e.2 with
    | .directory => true
    | .link _ => false
    | .file content _ =>
      match Text.dropPrefix? a e.1 with
      | none => true
      | some ns => t.files.find? (relativePath ns) == some content

/-- Where a directory holds a tree by its table, there are no links. -/
theorem hasNoLinks_of_holds {a : Address} (h : t.holds fs a = true) : fs.HasNoLinks := by
  intro b target hlink
  unfold FileSystem.entry? at hlink
  split at hlink
  · cases hlink
  · rw [Table.find?_eq_some_iff] at hlink
    have hentry := List.all_eq_true.1 h _ hlink
    cases hentry

/-- Every file below the address is in the tree, under its relative path. -/
theorem find?_of_holds {a : Address} (h : t.holds fs a = true) {ns : List FileName} {mode : FileMode}
    (hfile : fs.entry? (a ++ ns) = some (.file content mode)) :
    t.files.find? (relativePath ns) = some content := by
  unfold FileSystem.entry? at hfile
  split at hfile
  · cases hfile
  · rw [Table.find?_eq_some_iff] at hfile
    have hentry := List.all_eq_true.1 h _ hfile
    simp only [Text.dropPrefix?_eq_some_iff.2 rfl] at hentry
    exact eq_of_beq hentry

/-- **A directory holds the tree of the files below it,** if there are no links. -/
theorem inDirectory_of_holds {a : Address} (hdir : fs.resolve dir = .ok a)
    (hholds : t.holds fs a = true)
    (hread : ∀ e ∈ t.files.entries, (fs.read (dir.join e.1)).toOption = some e.2) :
    t.InDirectory fs dir := by
  refine ⟨(FileSystem.resolve_eq_ok_iff.1 hdir).2.1, fun name hname content => ?_⟩
  constructor
  · intro h
    obtain ⟨ns, hns, rfl⟩ := hname.exists_names
    obtain ⟨b, mode, hresolve, hentry⟩ := FileSystem.read_eq_ok_iff.1 h
    rw [Path.join, hname.startsWith_slash, if_neg Bool.false_ne_true] at hresolve
    rw [FileSystem.eq_of_resolve_child (hasNoLinks_of_holds hholds) hns hdir hresolve] at hentry
    exact find?_of_holds hholds hentry
  · intro h
    have hmem := (t.files.find?_eq_some_iff name content).1 h
    exact eq_ok_of_toOption_eq_some (hread (name, content) hmem)

/-- **The archive that is packed of a tree holds the tree.** -/
theorem inArchive_pack {path : Path} (hfile : fs.read path = .ok (Archive.pack t.files.entries))
    (h : Archive.Packable t.files.entries) : t.InArchive fs path := by
  obtain ⟨a, hbytes, hnames, hread⟩ := Archive.ofBytes_pack h
  refine ⟨a, ?_, fun name => ?_⟩
  · simp only [Archive.openAt, hfile, hbytes]
  · cases hfind : t.files.find? name with
    | none =>
      have hmissing : a.members.find? name = none := by
        rw [Table.find?_eq_none_iff] at hfind ⊢
        have hkeys : a.members.keys = t.files.keys := hnames
        rwa [hkeys]
      rw [Archive.read?, hmissing]
      rfl
    | some content =>
      exact hread (name, content) ((t.files.find?_eq_some_iff name content).1 hfind)

end FileTree
end LiveBuild
