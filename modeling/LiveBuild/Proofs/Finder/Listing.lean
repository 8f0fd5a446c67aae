/-
# What is listed can be read

A finder lists a package by the roots that a class path has for it; the class path reads
one name by its path.  The two go over the same directories and archives in different
ways.  What a finder lists is one block for each entry of the class path, in their order
(`find_eq_ok_iff`), and each block is known exactly:

| entry | its block | in it |
| --- | --- | --- |
| directory | `exists_names_block_directory` | one artifact for each file that ends with the extension (`fileArtifact?_eq_some_iff`) |
| archive | `block_archive` | one for each member directly in the package that does (`memberArtifact?_package_eq_some_iff`) |

For a well-formed name `p.t` listing and reading agree entry by entry
(`mem_block_member_iff`): the block of the package `p` holds an artifact of that name exactly
if reading the name does not miss, and it is where the entry would read the name.  So a
package is listed with a name exactly if the name can be read (`exists_mem_find_iff`).

An extension with a slash in it is the exception: reading follows the slash into a directory
below the package, and listings are one level deep.
-/

import LiveBuild.ClassPath
import LiveBuild.Finder
import LiveBuild.Proofs.FileSystem.Children
import LiveBuild.Proofs.QualifiedName.Shape
import Mathlib.Data.List.Nodup

namespace LiveBuild

open QualifiedName

variable {fs : FileSystem} {p t : String}

namespace Archive

/-- A member can be asked for exactly if it is among the names of the archive. -/
theorem readMember?_ne_none_iff {path : Path} {a : Archive} (h : openAt fs path = .ok a)
    (member : String) : readMember? fs path member ≠ .ok none ↔ member ∈ a.names := by
  have hnames : member ∈ a.names ↔ (a.members.find? member).isSome :=
    (Table.find?_isSome_iff _ _).symm
  rw [hnames, readMember?, h]
  simp only [read?]
  cases a.members.find? member with
  | none => simp
  | some m =>
    simp only [Option.map_some, Option.isSome_some, iff_true]
    cases m.read a.file with
    | ok contents => simp
    | error fault => cases fault <;> simp

end Archive

namespace ClassPath

/-- The class path misses a name exactly if all of its entries do. -/
theorem firstHit_ne_none_iff (relative : String) (entries : List ClassPathEntry) :
    firstHit fs relative entries ≠ .ok none ↔ ∃ e ∈ entries, e.read? fs relative ≠ .ok none := by
  induction entries with
  | nil => simp [firstHit]
  | cons e entries ih =>
    rw [firstHit]
    simp only [List.mem_cons, exists_eq_or_imp]
    cases h : e.read? fs relative with
    | error err => simp
    | ok bytes =>
      cases bytes with
      | none => simp [ih]
      | some bytes => simp

end ClassPath

namespace ClassPathEntry

/-- Where an entry has the artifact at a relative path, if it has it. -/
def place (relative : String) : ClassPathEntry → ArtifactPlace
  | .directory path => .file (path.join relative)
  | .archive path => .member path relative

/-- **What an entry reads is what an artifact at that place reads,** unless the entry misses. -/
theorem read_place {entry : ClassPathEntry} {relative : String}
    (h : entry.read? fs relative ≠ .ok none) (name : String) :
    ((ResolvedArtifact.mk name (entry.place relative)).read fs).map some =
      entry.read? fs relative := by
  cases entry with
  | directory path =>
    rw [read?] at h ⊢
    simp only [ResolvedArtifact.read, place]
    split at h
    · rename_i hfile
      rw [if_pos hfile]
      cases fs.read (path.join relative) <;> rfl
    · exact absurd rfl h
  | archive path =>
    rw [read?] at h ⊢
    simp only [ResolvedArtifact.read, place]
    cases hread : Archive.readMember? fs path relative with
    | error e => rfl
    | ok bytes =>
      cases bytes with
      | none => exact absurd hread h
      | some bytes => rfl

end ClassPathEntry

namespace Path

/-- **What is in a package is in the directory of the package.** -/
theorem join_toPath_slash (path : Path) (hp : IsPackage p) (r : String) :
    path.join (toPath p ++ "/" ++ r) = (path.join (toPath p)).child r := by
  obtain ⟨c, hc, hslash⟩ := head?_toPath hp
  obtain ⟨d, hd, hslash'⟩ := getLast?_toPath hp
  -- the path of a package neither begins nor ends with a slash, so slashes are put between only
  have hstart : ∀ r, Text.startsWith "/" (toPath p ++ r) = false := by
    intro r
    rw [Bool.eq_false_iff, ne_eq, Text.startsWith_iff]
    rintro ⟨q, hq⟩
    have hhead : (toPath p ++ r).toList.head? = some '/' := by
      rw [hq, String.toList_append]
      rfl
    rw [String.toList_append, List.head?_append, hc] at hhead
    exact hslash (Option.some.inj hhead)
  have hdir : path.join (toPath p) = path.child (toPath p) := by
    have hstart' := hstart ""
    rw [String.append_empty] at hstart'
    rw [join, hstart', if_neg Bool.false_ne_true]
  have hend : ¬ ((path.child (toPath p)).text = "" ∨
      Text.endsWith "/" (path.child (toPath p)).text = true) := by
    have hlast : (path.child (toPath p)).text.toList.getLast? = some d := by
      unfold child
      split
      · rw [String.toList_append, List.getLast?_append, hd]
        rfl
      · rw [String.toList_append, List.getLast?_append, hd]
        rfl
    rintro (hempty | hends)
    · rw [hempty] at hlast
      cases hlast
    · obtain ⟨q, hq⟩ := Text.endsWith_iff.1 hends
      rw [hq, String.toList_append, List.getLast?_append] at hlast
      exact hslash' (Option.some.inj hlast).symm
  have hchild : (path.child (toPath p)).child r =
      ⟨(path.child (toPath p)).text ++ "/" ++ r⟩ := by
    rw [child, if_neg hend]
  rw [hdir, hchild, String.append_assoc, join, hstart, if_neg Bool.false_ne_true, child, child]
  split <;> simp only [String.append_assoc]

/-- The file of a member of a package is in the directory of the package. -/
theorem join_toPath_member (path : Path) (hp : IsPackage p) (ht : IsSegment t) (extension : String) :
    path.join (toPath (member p t) ++ extension) =
      (path.join (toPath p)).child (t ++ extension) := by
  rw [toPath_member hp ht, String.append_assoc, join_toPath_slash path hp]

end Path

/-- A segment with an extension that has no slash is a file name. -/
theorem QualifiedName.IsSegment.exists_fileName (ht : IsSegment t) {extension : String}
    (h : '/' ∉ extension.toList) : ∃ n : FileName, n.text = t ++ extension := by
  obtain ⟨c, cs, hc⟩ := List.exists_cons_of_ne_nil ht.toList_ne_nil
  have hdot : c ≠ '.' := by
    rintro rfl
    exact ht.noDot (by simp [hc])
  have hhead : (t ++ extension).toList.head? = some c := by
    rw [String.toList_append, hc]
    rfl
  refine ⟨⟨t ++ extension, ?_, ?_, ?_, ?_⟩, rfl⟩
  · intro he
    rw [he] at hhead
    cases hhead
  · rw [String.toList_append, List.mem_append]
    exact not_or.2 ⟨ht.noSlash, h⟩
  · intro he
    rw [he] at hhead
    exact hdot (Option.some.inj hhead).symm
  · intro he
    rw [he] at hhead
    exact hdot (Option.some.inj hhead).symm

namespace Finder

variable {f : Finder} {entry : ClassPathEntry} {rs : List ResolvedArtifact} {r : ResolvedArtifact}

/-- Sorting loses no artifact. -/
theorem mem_inOrder {rs : List ResolvedArtifact} : r ∈ inOrder rs ↔ r ∈ rs := List.mem_mergeSort

/-- What different entries are has different names, if no two entries are given one name. -/
theorem nodup_binaryNames {α : Type} {as : List α} {g : α → Option ResolvedArtifact}
    (has : as.Nodup) (hg : ∀ {a b r t}, g a = some r → g b = some t →
      r.binaryName = t.binaryName → a = b) :
    ((as.filterMap g).map ResolvedArtifact.binaryName).Nodup := by
  refine List.pairwise_map.2 (List.Pairwise.filterMap _ ?_ has)
  intro a b hne r hr t ht h
  exact hne (hg hr ht h)

/-! ### Blocks -/

/-- What a finder lists of a package for one entry of a class path. -/
def block (f : Finder) (fs : FileSystem) (package : String) (entry : ClassPathEntry) :
    Except Error (List ResolvedArtifact) :=
  (entry.resources fs (toPath package)).bind (gather (f.listRoot fs package))

/-- **A listing of a class path is one block for each of its entries.** -/
theorem find_eq_ok_iff {c : ClassPath} (hhost : f.host.resources = c.resources)
    {found : List ResolvedArtifact} :
    f.find fs p = .ok found ↔ gather (f.block fs p) c.entries = .ok found := by
  have hbind : f.find fs p =
      (gather (ClassPathEntry.resources fs (toPath p)) c.entries).bind
        (gather (f.listRoot fs p)) := by
    rw [find, hhost, ClassPath.resources]
    cases gather (ClassPathEntry.resources fs (toPath p)) c.entries <;> rfl
  rw [hbind]
  exact gather_gather_eq_ok_iff

/-- The artifact that a file of a directory is: one named by what is before the extension. -/
theorem fileArtifact?_eq_some_iff {dir : Path} {n : FileName} :
    f.fileArtifact? fs p dir n = some r ↔
      fs.isFile (dir.child n.text) = true ∧ ∃ stem, n.text = stem ++ f.extension ∧
        r = ⟨member p stem, .file (dir.child n.text)⟩ := by
  rw [fileArtifact?]
  by_cases hfile : fs.isFile (dir.child n.text) = true
  · simp only [hfile, if_true, true_and, Option.map_eq_some_iff, Text.beforeEnd?_eq_some_iff]
    exact exists_congr fun stem => and_congr_right fun _ => eq_comm
  · simp [hfile]

/-- Different files of a directory are different artifacts by name. -/
theorem fileArtifact?_inj {dir : Path} {n n' : FileName} {t : ResolvedArtifact}
    (hr : f.fileArtifact? fs p dir n = some r) (ht : f.fileArtifact? fs p dir n' = some t)
    (h : r.binaryName = t.binaryName) : n = n' := by
  obtain ⟨-, stem, hn, rfl⟩ := fileArtifact?_eq_some_iff.1 hr
  obtain ⟨-, stem', hn', rfl⟩ := fileArtifact?_eq_some_iff.1 ht
  obtain rfl := member_inj.1 h
  exact fileName_ext (hn.trans hn'.symm)

/-- **The block of a directory** is made of names, each of them once, among them those of all files
in it. -/
theorem exists_names_block_directory (f : Finder) (fs : FileSystem) (p : String) (path : Path)
    (hpath : (path.join (toPath p)).text ≠ "") :
    ∃ names : List FileName, names.Nodup ∧
      f.block fs p (.directory path) =
        .ok (inOrder (names.filterMap (f.fileArtifact? fs p (path.join (toPath p))))) ∧
      ∀ n, fs.isFile ((path.join (toPath p)).child n.text) = true → n ∈ names := by
  set dir := path.join (toPath p)
  by_cases hdir : fs.isDirectory dir = true
  · obtain ⟨names, hnames, hnodup⟩ := FileSystem.exists_readDirectory_of_isDirectory hdir
    refine ⟨names, hnodup, ?_, fun n hn => ?_⟩
    · rw [block, ClassPathEntry.resources, if_pos hdir, Except.bind, gather_singleton, listRoot,
        hnames]
    · obtain ⟨x, hx⟩ := FileSystem.exists_target?_of_isFile hn
      obtain ⟨names', -, hnames', hmem⟩ := FileSystem.readDirectory_of_target?_child hpath hx
      have hsame : names = names' := Except.ok.inj (hnames.symm.trans hnames')
      rw [hsame]
      exact hmem
  · refine ⟨[], List.nodup_nil, ?_, fun n hn => ?_⟩
    · rw [block, ClassPathEntry.resources, if_neg hdir, List.filterMap_nil, inOrder,
        List.mergeSort_nil]
      rfl
    · obtain ⟨x, hx⟩ := FileSystem.exists_target?_of_isFile hn
      obtain ⟨-, hdir', -⟩ := FileSystem.readDirectory_of_target?_child hpath hx
      exact absurd hdir' hdir

/-- The artifact that a member of an archive is: one directly under the root, named by its path
up to the extension. -/
theorem memberArtifact?_eq_some_iff {archive : Path} {root name : String} :
    f.memberArtifact? archive root name = some r ↔
      ∃ stem, '/' ∉ (stem ++ f.extension).toList ∧ name = root ++ (stem ++ f.extension) ∧
        r = ⟨ofPath (root ++ stem), .member archive name⟩ := by
  have hbefore : ∀ stem, Text.beforeEnd? f.extension (root ++ (stem ++ f.extension)) =
      some (root ++ stem) := by
    intro stem
    rw [Text.beforeEnd?_eq_some_iff, ← String.append_assoc]
  rw [memberArtifact?, Option.bind_eq_bind, Option.bind_eq_some_iff]
  simp only [Text.afterStart?_eq_some_iff]
  constructor
  · rintro ⟨rest, hrest, hr⟩
    split at hr
    · cases hr
    · rename_i hok
      rw [not_or, not_not] at hok
      obtain ⟨hflat, hends⟩ := hok
      obtain ⟨stem, rfl⟩ := Text.endsWith_iff.1 hends
      have hname := hbefore stem
      rw [← hrest] at hname
      rw [hname] at hr
      exact ⟨stem, hflat, hrest, (Option.some.inj hr).symm⟩
  · rintro ⟨stem, hflat, rfl, rfl⟩
    refine ⟨stem ++ f.extension, rfl, ?_⟩
    have hok : ¬ ('/' ∈ (stem ++ f.extension).toList ∨
        ¬ Text.endsWith f.extension (stem ++ f.extension) = true) := by
      rw [not_or, not_not]
      exact ⟨hflat, Text.endsWith_iff.2 ⟨stem, rfl⟩⟩
    rw [if_neg hok, hbefore]
    rfl

/-- Different members of an archive are different artifacts by name: behind the root there is no
slash, so the stem is still there among the dots. -/
theorem memberArtifact?_inj {archive : Path} {root name name' : String} {t : ResolvedArtifact}
    (hr : f.memberArtifact? archive root name = some r)
    (ht : f.memberArtifact? archive root name' = some t) (h : r.binaryName = t.binaryName) :
    name = name' := by
  obtain ⟨stem, hflat, hname, rfl⟩ := memberArtifact?_eq_some_iff.1 hr
  obtain ⟨stem', hflat', hname', rfl⟩ := memberArtifact?_eq_some_iff.1 ht
  rw [String.toList_append, List.mem_append, not_or] at hflat hflat'
  have hstem : ofPath root ++ stem = ofPath root ++ stem' := by
    rw [← ofPath_append hflat.1, ← ofPath_append hflat'.1]
    exact h
  rw [hname, hname', (String.append_right_inj _).1 hstem]

/-- In a package that is not the default one, what is before the extension is the name's last
segment. -/
theorem memberArtifact?_package_eq_some_iff (hp : IsPackage p) {archive : Path} {name : String} :
    f.memberArtifact? archive (toPath p ++ "/") name = some r ↔
      '/' ∉ f.extension.toList ∧ ∃ stem, '/' ∉ stem.toList ∧
        name = toPath p ++ "/" ++ (stem ++ f.extension) ∧
        r = ⟨member p stem, .member archive name⟩ := by
  have hflat : ∀ stem, '/' ∉ (stem ++ f.extension).toList ↔
      '/' ∉ stem.toList ∧ '/' ∉ f.extension.toList := by
    intro stem
    rw [String.toList_append, List.mem_append, not_or]
  rw [memberArtifact?_eq_some_iff, ← exists_and_left]
  refine exists_congr fun stem => ?_
  rw [hflat, and_comm (a := '/' ∉ stem.toList), and_assoc]
  refine and_congr_right fun _ => and_congr_right fun hstem => and_congr_right fun _ => ?_
  rw [ofPath_toPath hp hstem]

/-- **The block of an archive** is made of the names of its members. -/
theorem block_archive {path : Path} {a : Archive} (hopen : Archive.openAt fs path = .ok a)
    (hroot : (toPath p).toList.getLast? ≠ some '/') :
    f.block fs p (.archive path) =
      .ok (inOrder (a.names.filterMap (f.memberArtifact? path (toPath p ++ "/")))) := by
  rw [block, ClassPathEntry.resources, hopen]
  by_cases hany : a.names.any (Text.startsWith (toPath p ++ "/")) = true
  · simp only [hany, if_true, Except.bind]
    rw [gather_singleton, listRoot, hopen]
    simp only [Text.withoutTrailing_of_getLast?_ne hroot]
  · have hnone : a.names.filterMap (f.memberArtifact? path (toPath p ++ "/")) = [] := by
      rw [List.filterMap_eq_nil_iff]
      intro name hname
      have hstart : Text.afterStart? (toPath p ++ "/") name = none := by
        rw [Option.eq_none_iff_forall_not_mem]
        intro rest hrest
        rw [Option.mem_def, Text.afterStart?_eq_some_iff] at hrest
        exact hany (List.any_eq_true.2 ⟨name, hname, Text.startsWith_iff.2 ⟨rest, hrest⟩⟩)
      rw [memberArtifact?, hstart]
      rfl
    simp only [hany, hnone, inOrder, List.mergeSort_nil, Bool.false_eq_true, if_false]
    rfl

/-! ### One name in a block -/

/-- **A directory lists a name exactly if it can read it,** where it would read it. -/
theorem mem_block_directory_iff (hp : IsPackage p) (ht : IsSegment t) {path : Path}
    (h : f.block fs p (.directory path) = .ok rs) :
    r ∈ rs ∧ r.binaryName = member p t ↔
      '/' ∉ f.extension.toList ∧
        (ClassPathEntry.directory path).read? fs (toPath (member p t) ++ f.extension) ≠ .ok none ∧
        r = ⟨member p t,
          (ClassPathEntry.directory path).place (toPath (member p t) ++ f.extension)⟩ := by
  obtain ⟨names, -, hblock, hall⟩ := exists_names_block_directory f fs p path
    (Path.join_nonempty (.inr (toPath_nonempty hp.nonempty)))
  rw [hblock] at h
  obtain rfl := Except.ok.inj h
  rw [mem_inOrder, List.mem_filterMap, ClassPathEntry.read?, ClassPathEntry.place,
    path.join_toPath_member hp ht]
  simp only [fileArtifact?_eq_some_iff]
  set dir := path.join (toPath p)
  constructor
  · rintro ⟨⟨n, -, hfile, stem, hn, rfl⟩, hname⟩
    obtain rfl := member_inj.1 hname
    refine ⟨fun hslash => n.noSlash ?_, ?_, by rw [hn]⟩
    · rw [hn, String.toList_append]
      exact List.mem_append_right _ hslash
    · obtain ⟨content, hcontent⟩ := FileSystem.exists_read_of_isFile hfile
      rw [← hn, if_pos hfile, hcontent]
      simp
  · rintro ⟨hslash, hread, rfl⟩
    obtain ⟨n, hn⟩ := ht.exists_fileName hslash
    rw [← hn] at hread ⊢
    have hfile : fs.isFile (dir.child n.text) = true := by
      by_contra hno
      rw [if_neg hno] at hread
      exact hread rfl
    exact ⟨⟨n, hall n hfile, hfile, t, hn, rfl⟩, rfl⟩

/-- **An archive lists a name exactly if it can read it,** where it would read it. -/
theorem mem_block_archive_iff (hp : IsPackage p) (ht : IsSegment t) {path : Path}
    (h : f.block fs p (.archive path) = .ok rs) :
    r ∈ rs ∧ r.binaryName = member p t ↔
      '/' ∉ f.extension.toList ∧
        (ClassPathEntry.archive path).read? fs (toPath (member p t) ++ f.extension) ≠ .ok none ∧
        r = ⟨member p t,
          (ClassPathEntry.archive path).place (toPath (member p t) ++ f.extension)⟩ := by
  cases hopen : Archive.openAt fs path with
  | error e =>
    rw [block, ClassPathEntry.resources, hopen] at h
    cases h
  | ok a =>
    rw [block_archive hopen (getLast?_toPath_ne hp)] at h
    obtain rfl := Except.ok.inj h
    rw [mem_inOrder, List.mem_filterMap, ClassPathEntry.read?, ClassPathEntry.place,
      Archive.readMember?_ne_none_iff hopen, toPath_member hp ht, String.append_assoc]
    simp only [memberArtifact?_package_eq_some_iff hp]
    constructor
    · rintro ⟨⟨name, hmem, hslash, stem, -, rfl, rfl⟩, hname⟩
      obtain rfl := member_inj.1 hname
      exact ⟨hslash, hmem, rfl⟩
    · rintro ⟨hslash, hmem, rfl⟩
      exact ⟨⟨_, hmem, hslash, t, ht.noSlash, rfl, rfl⟩, rfl⟩

/-- **Every entry of a class path lists a name exactly if it can read it,** where it would read
it. -/
theorem mem_block_member_iff (hp : IsPackage p) (ht : IsSegment t)
    (h : f.block fs p entry = .ok rs) :
    r ∈ rs ∧ r.binaryName = member p t ↔
      '/' ∉ f.extension.toList ∧
        entry.read? fs (toPath (member p t) ++ f.extension) ≠ .ok none ∧
        r = ⟨member p t, entry.place (toPath (member p t) ++ f.extension)⟩ := by
  cases entry with
  | directory path => exact mem_block_directory_iff hp ht h
  | archive path => exact mem_block_archive_iff hp ht h

/-- **A package is listed with an artifact of a name exactly if the name can be read,** and no
slash in the extension leads below the package. -/
theorem exists_mem_find_iff (hp : IsPackage p) (ht : IsSegment t) {c : ClassPath}
    (hhost : f.host.resources = c.resources) (hextension : f.extension = c.extension)
    {found : List ResolvedArtifact} (hfind : f.find fs p = .ok found) :
    (∃ r ∈ found, r.binaryName = member p t) ↔
      '/' ∉ c.extension.toList ∧ c.read? fs (member p t) ≠ .ok none := by
  rw [find_eq_ok_iff hhost] at hfind
  rw [ClassPath.read?, ClassPath.firstHit_ne_none_iff, ClassPath.relativePath, ← hextension]
  constructor
  · rintro ⟨r, hr, hname⟩
    obtain ⟨entry, hentry, rs, hrs, hmem⟩ := (mem_gather hfind).1 hr
    obtain ⟨hslash, hread, -⟩ := (mem_block_member_iff hp ht hrs).1 ⟨hmem, hname⟩
    exact ⟨hslash, entry, hentry, hread⟩
  · rintro ⟨hslash, entry, hentry, hread⟩
    obtain ⟨rs, hrs⟩ := exists_of_gather hfind hentry
    obtain ⟨hmem, hname⟩ := (mem_block_member_iff hp ht hrs).2 ⟨hslash, hread, rfl⟩
    exact ⟨_, (mem_gather hfind).2 ⟨entry, hentry, rs, hrs, hmem⟩, hname⟩

end Finder
end LiveBuild
