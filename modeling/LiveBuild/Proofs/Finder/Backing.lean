/-
# Directories and archives of one tree

A tree of files can back a class path in a directory or in an archive.  What the tree has for a
package is known from the tree alone (`FileTree.listing`), and for every package with a name both
list just that, and both read every name as the tree has it.

The default package is the exception.  The directory has it and lists the files at the top of the
tree.  The archive is asked for members that begin with a slash, which no relative path does, and
lists nothing, though it reads the same names.  So the two are interchangeable exactly if no file
at the top of the tree ends with the extension (`backings_of_tree`).
-/

import LiveBuild.FileSystem.Edit
import LiveBuild.Proofs.Finder.Lookup
import LiveBuild.Proofs.Finder.Tree

namespace LiveBuild

open QualifiedName

variable {fs : FileSystem} {p : String} {t : FileTree} {name : String}

/-- An artifact in a file has the file's contents. -/
theorem ResolvedArtifact.read_file_iff {path : Path} {content : Bytes} :
    (ResolvedArtifact.mk name (.file path)).read fs = .ok content ↔
      fs.read path = .ok content := by
  simp only [ResolvedArtifact.read]
  cases fs.read path <;> simp

/-! ### Paths in packages -/

namespace QualifiedName

/-- What the paths of a package begin with; the default package is at the top. -/
def pathPrefix (p : String) : String := if p = "" then "" else toPath p ++ "/"

theorem pathPrefix_default : pathPrefix "" = "" := rfl

/-- The paths of a package with a name begin with its own path and a slash. -/
theorem pathPrefix_of_isPackage (hp : IsPackage p) : pathPrefix p = toPath p ++ "/" :=
  if_neg hp.nonempty

/-- A segment of a name is a relative path of one piece. -/
theorem isRelative_segment {s : String} (hs : IsSegment s) : IsRelative s := by
  rw [IsRelative, Path.pieces_of_noSlash hs.noSlash, List.forall_mem_singleton]
  refine ⟨hs.nonempty, ?_, ?_⟩
  · rintro rfl
    exact hs.noDot (by decide)
  · rintro rfl
    exact hs.noDot (by decide)

/-- The path of a package is relative. -/
theorem isRelative_toPath (hp : IsPackage p) : IsRelative (toPath p) := by
  induction hp with
  | segment ht =>
    rw [toPath, Text.exchange_of_notMem ht.noDot]
    exact isRelative_segment ht
  | inside hp ht ih =>
    rw [← member_eq hp, toPath_member hp ht, isRelative_slash_iff]
    exact ⟨ih, isRelative_segment ht⟩

/-- The path of a name with an extension behind it is relative. -/
theorem isRelative_toPath_extension (hp : IsPackage p) {extension : String}
    (hslash : '/' ∉ extension.toList) : IsRelative (toPath p ++ extension) := by
  cases hp with
  | segment ht =>
    obtain ⟨n, hn⟩ := ht.exists_fileName hslash
    rw [toPath, Text.exchange_of_notMem ht.noDot, ← hn]
    exact isRelative_fileName n
  | inside hp ht =>
    obtain ⟨n, hn⟩ := ht.exists_fileName hslash
    rw [← member_eq hp, toPath_member hp ht, String.append_assoc, isRelative_slash_iff, ← hn]
    exact ⟨isRelative_toPath hp, isRelative_fileName n⟩

/-- What stands behind the prefix of a package is relative exactly if the whole is. -/
theorem isRelative_pathPrefix_iff (hp : p = "" ∨ IsPackage p) {r : String} :
    IsRelative (pathPrefix p ++ r) ↔ IsRelative r := by
  rcases hp with rfl | hp
  · rw [pathPrefix_default, String.empty_append]
  · rw [pathPrefix_of_isPackage hp, isRelative_slash_iff]
    exact and_iff_right (isRelative_toPath hp)

end QualifiedName

namespace Path

/-- A relative path is joined by going into the directory. -/
theorem join_eq_child {path : Path} (h : IsRelative name) : path.join name = path.child name := by
  rw [join, h.startsWith_slash, if_neg Bool.false_ne_true]

/-- The path of a file in a package is that of its name in the directory of the package. -/
theorem join_pathPrefix (path : Path) (hp : p = "" ∨ IsPackage p) (n : FileName) :
    path.join (pathPrefix p ++ n.text) = (path.join (toPath p)).child n.text := by
  rcases hp with rfl | hp
  · have hdir : path.join (toPath "") = path.child "" := rfl
    rw [pathPrefix_default, String.empty_append, join_eq_child (isRelative_fileName n), hdir]
    by_cases hend : path.text = "" ∨ Text.endsWith "/" path.text = true
    · have hself : path.child "" = path := by
        rw [child, if_pos hend, String.append_empty]
      rw [hself]
    · have hslash : path.child "" = ⟨path.text ++ "/"⟩ := by
        rw [child, if_neg hend, String.append_empty]
      rw [hslash, child, if_neg hend, child, if_pos (.inr (Text.endsWith_iff.2 ⟨path.text, rfl⟩))]
  · rw [pathPrefix_of_isPackage hp, path.join_toPath_slash hp]

end Path

/-! ### What a tree has for a package -/

/-- What a file of a tree is listed as in a package, if it is. -/
def listed? (extension p : String) (e : String × Bytes) : Option (String × Bytes) := do
  let rest ← Text.afterStart? (pathPrefix p) e.1
  if '/' ∈ rest.toList then none
  else
    let stem ← Text.beforeEnd? extension rest
    return (member p stem, e.2)

/-- A file is listed in a package if it is directly in it and ends with the extension. -/
theorem listed?_eq_some_iff {extension : String} {e x : String × Bytes} :
    listed? extension p e = some x ↔
      ∃ stem, '/' ∉ (stem ++ extension).toList ∧ e.1 = pathPrefix p ++ (stem ++ extension) ∧
        x = (member p stem, e.2) := by
  rw [listed?, Option.bind_eq_bind, Option.bind_eq_some_iff]
  simp only [Text.afterStart?_eq_some_iff]
  constructor
  · rintro ⟨rest, hrest, hx⟩
    split at hx
    · cases hx
    · rename_i hflat
      obtain ⟨stem, hstem, hx⟩ := Option.bind_eq_some_iff.1 hx
      rw [Text.beforeEnd?_eq_some_iff] at hstem
      rw [hstem] at hflat hrest
      exact ⟨stem, hflat, hrest, (Option.some.inj hx).symm⟩
  · rintro ⟨stem, hflat, hpath, rfl⟩
    refine ⟨_, hpath, ?_⟩
    rw [if_neg hflat, Text.beforeEnd?_eq_some_iff.2 rfl]
    rfl

namespace FileTree

/-- What a tree has for a package: binary names in increasing order, with contents. -/
def listing (t : FileTree) (extension p : String) : List (String × Bytes) :=
  (t.files.entries.filterMap (listed? extension p)).mergeSort fun a b => decide (a.1 ≤ b.1)

variable {extension : String} {dir path : Path}

/-- **The listing of a tree** has what the tree has directly in the package, by names and contents.
-/
theorem mem_listing_iff {content : Bytes} :
    (name, content) ∈ t.listing extension p ↔
      ∃ stem, '/' ∉ (stem ++ extension).toList ∧ name = member p stem ∧
        t.files.find? (pathPrefix p ++ (stem ++ extension)) = some content := by
  rw [listing, List.mem_mergeSort, List.mem_filterMap]
  simp only [listed?_eq_some_iff, Table.find?_eq_some_iff]
  constructor
  · rintro ⟨⟨path, content'⟩, hmem, stem, hflat, hpath, hx⟩
    cases hx
    dsimp only at hpath
    exact ⟨stem, hflat, rfl, hpath ▸ hmem⟩
  · rintro ⟨stem, hflat, rfl, hmem⟩
    exact ⟨_, hmem, stem, hflat, rfl, rfl⟩

/-- The listing of a tree has strictly increasing names. -/
theorem pairwise_listing :
    (t.listing extension p).Pairwise fun a b => a.1 < b.1 := by
  refine pairwise_mergeSort_of_nodup Prod.fst (List.pairwise_map.2 ?_)
  refine List.Pairwise.filterMap _ ?_ (List.pairwise_map.1 t.files.nodup)
  intro e e' hne x hx y hy hxy
  obtain ⟨stem, -, hpath, rfl⟩ := listed?_eq_some_iff.1 hx
  obtain ⟨stem', -, hpath', rfl⟩ := listed?_eq_some_iff.1 hy
  obtain rfl := member_inj.1 hxy
  exact hne (hpath.trans hpath'.symm)

end FileTree

/-! ### What a backing lists -/

namespace Finder

variable {f : Finder}

/-- What a finder lists of a package: binary names with contents. -/
def contents (f : Finder) (fs : FileSystem) (package : String) :
    Except Error (List (String × Bytes)) :=
  (f.find fs package).bind
    (gather fun r => (r.read fs).map fun content => [(r.binaryName, content)])

/-- **Artifacts are listed as a tree has them** if they are read as the tree has them, and are
sorted. -/
theorem contents_eq_listing {extension : String} {rs : List ResolvedArtifact}
    (hfind : f.find fs p = .ok (inOrder rs))
    (hnodup : (rs.map ResolvedArtifact.binaryName).Nodup)
    (hread : ∀ r ∈ rs, ∃ content, r.read fs = .ok content)
    (hmem : ∀ name content, (name, content) ∈ t.listing extension p ↔
      ∃ r ∈ rs, r.binaryName = name ∧ r.read fs = .ok content) :
    f.contents fs p = .ok (t.listing extension p) := by
  let entry : ResolvedArtifact → String × Bytes := fun r =>
    (r.binaryName, (r.read fs).toOption.getD [])
  have hentry : ∀ r ∈ inOrder rs,
      (r.read fs).map (fun content => [(r.binaryName, content)]) = .ok [entry r] := by
    intro r hr
    obtain ⟨content, hcontent⟩ := hread r (mem_inOrder.1 hr)
    simp only [entry, hcontent]
    rfl
  rw [contents, hfind]
  refine (gather_eq_map hentry).trans (congrArg Except.ok ?_)
  refine eq_of_pairwise_lt Prod.fst ?_ FileTree.pairwise_listing fun ⟨name, content⟩ => ?_
  · exact List.pairwise_map.2 (pairwise_mergeSort_of_nodup _ hnodup)
  · rw [hmem, List.mem_map]
    refine exists_congr fun r => ?_
    rw [mem_inOrder]
    refine and_congr_right fun hr => ?_
    obtain ⟨content', hcontent⟩ := hread r hr
    simp only [entry, hcontent, Prod.mk.injEq, Except.ok.injEq]
    rfl

end Finder

namespace FileTree

variable {dir path : Path} {c : ClassPath}

/-- **A directory lists what its tree has,** in the default package too. -/
theorem contents_directory (h : t.InDirectory fs dir) (hc : c.entries = [.directory dir])
    (hp : p = "" ∨ IsPackage p) :
    c.finder.contents fs p = .ok (t.listing c.extension p) := by
  obtain ⟨names, hnodup, hblock, hall⟩ := Finder.exists_names_block_directory c.finder fs p dir
    (Path.join_nonempty (.inl h.nonempty))
  have hfind : c.finder.find fs p = .ok (Finder.inOrder
      (names.filterMap (c.finder.fileArtifact? fs p (dir.join (toPath p))))) := by
    rw [Finder.find_eq_ok_iff rfl, hc, gather_singleton, hblock]
  have hread : ∀ (n : FileName) (content : Bytes),
      fs.read ((dir.join (toPath p)).child n.text) = .ok content ↔
        t.files.find? (pathPrefix p ++ n.text) = some content := by
    intro n content
    rw [← dir.join_pathPrefix hp]
    exact h.read_iff _ ((isRelative_pathPrefix_iff hp).2 (isRelative_fileName n)) content
  refine Finder.contents_eq_listing hfind ?_ ?_ fun name content => ?_
  · exact Finder.nodup_binaryNames hnodup Finder.fileArtifact?_inj
  · intro r hr
    obtain ⟨n, -, hr⟩ := List.mem_filterMap.1 hr
    obtain ⟨hfile, stem, -, rfl⟩ := Finder.fileArtifact?_eq_some_iff.1 hr
    obtain ⟨content, hcontent⟩ := FileSystem.exists_read_of_isFile hfile
    exact ⟨content, ResolvedArtifact.read_file_iff.2 hcontent⟩
  · rw [mem_listing_iff]
    simp only [List.mem_filterMap, Finder.fileArtifact?_eq_some_iff]
    constructor
    · rintro ⟨stem, hflat, rfl, hfind⟩
      obtain ⟨n, hn⟩ := ((isRelative_pathPrefix_iff hp).1
        (isRelative_of_find? hfind)).exists_fileName hflat
      rw [← hn, ← hread] at hfind
      have hfile := FileSystem.isFile_iff.2 ⟨content, hfind⟩
      exact ⟨_, ⟨n, hall n hfile, hfile, stem, hn, rfl⟩, rfl,
        ResolvedArtifact.read_file_iff.2 hfind⟩
    · rintro ⟨r, ⟨n, -, -, stem, hn, rfl⟩, rfl, hcontent⟩
      rw [ResolvedArtifact.read_file_iff, hread, hn] at hcontent
      exact ⟨stem, hn ▸ n.noSlash, rfl, hcontent⟩

/-- A member is read from the archive as the tree has it. -/
theorem InArchive.readMember?_eq (h : t.InArchive fs path) (name : String) :
    Archive.readMember? fs path name = .ok (t.files.find? name) := by
  obtain ⟨a, hopen, hread⟩ := h
  rw [Archive.readMember?, hopen]
  simp only [hread]
  cases t.files.find? name <;> rfl

/-- The members of the archive are the files of the tree. -/
theorem InArchive.mem_names_iff (h : t.InArchive fs path) {a : Archive}
    (hopen : Archive.openAt fs path = .ok a) (name : String) :
    name ∈ a.names ↔ ∃ content, t.files.find? name = some content := by
  rw [← Archive.readMember?_ne_none_iff hopen, h.readMember?_eq, ← Option.isSome_iff_exists,
    Option.isSome_iff_ne_none]
  simp

/-- **An archive lists what its tree has,** in every package with a name. -/
theorem contents_archive (h : t.InArchive fs path) (hc : c.entries = [.archive path])
    (hslash : '/' ∉ c.extension.toList) (hp : IsPackage p) :
    c.finder.contents fs p = .ok (t.listing c.extension p) := by
  obtain ⟨a, hopen, -⟩ := id h
  have hfind : c.finder.find fs p = .ok (Finder.inOrder
      (a.names.filterMap (c.finder.memberArtifact? path (toPath p ++ "/")))) := by
    rw [Finder.find_eq_ok_iff rfl, hc, gather_singleton,
      Finder.block_archive hopen (getLast?_toPath_ne hp)]
  have hread : ∀ {binaryName entry : String} {content : Bytes},
      (ResolvedArtifact.mk binaryName (.member path entry)).read fs = .ok content ↔
        t.files.find? entry = some content := by
    intro binaryName entry content
    simp only [ResolvedArtifact.read, h.readMember?_eq]
    cases t.files.find? entry <;> simp
  refine Finder.contents_eq_listing hfind ?_ ?_ fun name content => ?_
  · exact Finder.nodup_binaryNames a.members.nodup_keys Finder.memberArtifact?_inj
  · intro r hr
    obtain ⟨n, hn, hr⟩ := List.mem_filterMap.1 hr
    obtain ⟨-, stem, -, -, rfl⟩ := (Finder.memberArtifact?_package_eq_some_iff hp).1 hr
    obtain ⟨content, hcontent⟩ := (h.mem_names_iff hopen n).1 hn
    exact ⟨content, hread.2 hcontent⟩
  · rw [mem_listing_iff, pathPrefix_of_isPackage hp]
    simp only [List.mem_filterMap, Finder.memberArtifact?_package_eq_some_iff hp]
    constructor
    · rintro ⟨stem, hflat, rfl, hfind⟩
      rw [String.toList_append, List.mem_append, not_or] at hflat
      exact ⟨_, ⟨_, (h.mem_names_iff hopen _).2 ⟨content, hfind⟩, hslash, stem, hflat.1, rfl, rfl⟩,
        rfl, hread.2 hfind⟩
    · rintro ⟨r, ⟨n, -, -, stem, hstem, rfl, rfl⟩, rfl, hcontent⟩
      refine ⟨stem, ?_, rfl, hread.1 hcontent⟩
      rw [String.toList_append, List.mem_append]
      exact not_or.2 ⟨hstem, hslash⟩

/-- **An archive lists nothing in the default package:** no relative path begins with a slash. -/
theorem contents_archive_default (h : t.InArchive fs path) (hc : c.entries = [.archive path]) :
    c.finder.contents fs "" = .ok [] := by
  obtain ⟨a, hopen, -⟩ := id h
  have hnone : a.names.filterMap (c.finder.memberArtifact? path "/") = [] := by
    rw [List.filterMap_eq_nil_iff]
    intro name hname
    obtain ⟨content, hcontent⟩ := (h.mem_names_iff hopen name).1 hname
    have hstart := (isRelative_of_find? hcontent).startsWith_slash
    have hafter : Text.afterStart? "/" name = none := by
      rw [Option.eq_none_iff_forall_not_mem]
      intro rest hrest
      rw [Option.mem_def, Text.afterStart?_eq_some_iff] at hrest
      rw [Text.startsWith_iff.2 ⟨rest, hrest⟩] at hstart
      cases hstart
    rw [Finder.memberArtifact?, hafter]
    rfl
  have hblock : c.finder.block fs "" (.archive path) = .ok (Finder.inOrder
      (a.names.filterMap (c.finder.memberArtifact? path "/"))) :=
    Finder.block_archive hopen (by simp [toPath, Text.exchange])
  have hfind : c.finder.find fs "" = .ok [] := by
    rw [Finder.find_eq_ok_iff rfl, hc, gather_singleton, hblock, hnone, Finder.inOrder,
      List.mergeSort_nil]
  rw [Finder.contents, hfind]
  rfl

/-! ### What a backing reads -/

/-- A class path over the directory reads a name as the tree has it. -/
theorem read?_directory (h : t.InDirectory fs dir) (hc : c.entries = [.directory dir])
    (hname : IsRelative (c.relativePath name)) :
    c.read? fs name = .ok (t.files.find? (c.relativePath name)) := by
  rw [ClassPath.read?, hc]
  have hread := h.read_iff _ hname
  cases hfind : t.files.find? (c.relativePath name) with
  | none =>
    have hno : ¬ fs.isFile (dir.join (c.relativePath name)) = true := by
      rw [FileSystem.isFile_iff]
      rintro ⟨content, hcontent⟩
      rw [hread, hfind] at hcontent
      cases hcontent
    simp only [ClassPath.firstHit, ClassPathEntry.read?, if_neg hno]
  | some content =>
    have hcontent := (hread content).2 hfind
    have hfile := FileSystem.isFile_iff.2 ⟨content, hcontent⟩
    simp only [ClassPath.firstHit, ClassPathEntry.read?, if_pos hfile, hcontent]

/-- A class path over the archive reads a name as the tree has it. -/
theorem read?_archive (h : t.InArchive fs path) (hc : c.entries = [.archive path]) (name : String) :
    c.read? fs name = .ok (t.files.find? (c.relativePath name)) := by
  rw [ClassPath.read?, hc]
  simp only [ClassPath.firstHit, ClassPathEntry.read?, h.readMember?_eq]
  cases t.files.find? (c.relativePath name) <;> rfl

end FileTree

namespace ClassPath

/-- Two class paths list every package with the same contents and read every name alike. -/
def Interchangeable (fs : FileSystem) (c c' : ClassPath) : Prop :=
  (∀ p, p = "" ∨ IsPackage p → c.finder.contents fs p = c'.finder.contents fs p) ∧
    ∀ n, IsPackage n → c.read? fs n = c'.read? fs n

end ClassPath

/-- **A directory and an archive of one tree** list every package with a name, and read every name,
as the tree has them; they are interchangeable exactly if no file at the top of the tree ends with
the extension. -/
theorem FileTree.backings_of_tree (t : FileTree) (c c' : ClassPath) {dir path : Path}
    (hdir : t.InDirectory fs dir) (harchive : t.InArchive fs path)
    (hc : c.entries = [.directory dir]) (hc' : c'.entries = [.archive path])
    (hextension : c'.extension = c.extension) (hslash : '/' ∉ c.extension.toList) :
    (∀ p, IsPackage p → c.finder.contents fs p = .ok (t.listing c.extension p) ∧
      c'.finder.contents fs p = .ok (t.listing c.extension p)) ∧
    (∀ n, IsPackage n → c.read? fs n = .ok (t.files.find? (toPath n ++ c.extension)) ∧
      c'.read? fs n = .ok (t.files.find? (toPath n ++ c.extension))) ∧
    (c.Interchangeable fs c' ↔
      ∀ name ∈ t.files.keys, Text.endsWith c.extension name = true → '/' ∈ name.toList) := by
  have hlist : ∀ p, IsPackage p → c.finder.contents fs p = .ok (t.listing c.extension p) ∧
      c'.finder.contents fs p = .ok (t.listing c.extension p) := by
    intro p hp
    refine ⟨contents_directory hdir hc (.inr hp), ?_⟩
    rw [← hextension] at hslash ⊢
    exact contents_archive harchive hc' hslash hp
  have hread : ∀ n, IsPackage n → c.read? fs n = .ok (t.files.find? (toPath n ++ c.extension)) ∧
      c'.read? fs n = .ok (t.files.find? (toPath n ++ c.extension)) := by
    intro n hn
    refine ⟨read?_directory hdir hc (isRelative_toPath_extension hn hslash), ?_⟩
    rw [← hextension]
    exact read?_archive harchive hc' n
  -- only the default package can make a difference, as there the archive lists nothing
  have htop : c.Interchangeable fs c' ↔ t.listing c.extension "" = [] := by
    have hdefault : c.finder.contents fs "" = c'.finder.contents fs "" ↔
        t.listing c.extension "" = [] := by
      rw [contents_directory hdir hc (.inl rfl), contents_archive_default harchive hc',
        Except.ok.injEq]
    rw [← hdefault]
    constructor
    · exact fun h => h.1 "" (.inl rfl)
    · refine fun h => ⟨?_, fun n hn => (hread n hn).1.trans (hread n hn).2.symm⟩
      rintro p (rfl | hp)
      · exact h
      · exact (hlist p hp).1.trans (hlist p hp).2.symm
  refine ⟨hlist, hread, htop.trans ⟨fun hempty name hname hends => ?_, fun hdeep => ?_⟩⟩
  · by_contra hflat
    obtain ⟨stem, rfl⟩ := Text.endsWith_iff.1 hends
    obtain ⟨content, hcontent⟩ :=
      Option.isSome_iff_exists.1 ((t.files.find?_isSome_iff _).2 hname)
    have hmem : (member "" stem, content) ∈ t.listing c.extension "" :=
      mem_listing_iff.2 ⟨stem, hflat, rfl, by rwa [pathPrefix_default, String.empty_append]⟩
    rw [hempty] at hmem
    cases hmem
  · rw [List.eq_nil_iff_forall_not_mem]
    rintro ⟨name, content⟩ hmem
    obtain ⟨stem, hflat, -, hfind⟩ := mem_listing_iff.1 hmem
    rw [pathPrefix_default, String.empty_append] at hfind
    refine hflat (hdeep _ ((t.files.find?_isSome_iff _).1 ?_) (Text.endsWith_iff.2 ⟨stem, rfl⟩))
    rw [hfind, Option.isSome_some]

/-! ### A file at the top -/

namespace FileTree

/-- A tree with one file at the top and one in a package. -/
def sample : FileTree :=
  ⟨(Table.empty.insert "Main.code" [2]).insert "lib/App.code" [1], by decide⟩

/-- A file system with the tree in a directory and in an archive. -/
def sampled : FileSystem :=
  ((FileSystem.empty.write ⟨"classes/Main.code"⟩ [2]).write ⟨"classes/lib/App.code"⟩ [1]).write
    ⟨"lib.zip"⟩ (Archive.pack sample.files.entries)

/-- The class path over the directory. -/
def overDirectory : ClassPath := ⟨[.directory ⟨"classes"⟩], ".code", .image 0, ⟨0⟩⟩

/-- The class path over the archive. -/
def overArchive : ClassPath := ⟨[.archive ⟨"lib.zip"⟩], ".code", .image 0, ⟨0⟩⟩

/-- The directory has the sample, file by file. -/
theorem inDirectory_sample : sample.InDirectory sampled ⟨"classes"⟩ :=
  inDirectory_of_holds (a := [⟨"classes", by decide, by decide, by decide, by decide⟩])
    (eq_ok_of_toOption_eq_some (by decide +kernel)) (by decide +kernel) (by decide +kernel)

/-- The archive has the sample, member by member. -/
theorem inArchive_sample : sample.InArchive sampled ⟨"lib.zip"⟩ :=
  inArchive_pack (eq_ok_of_toOption_eq_some (by decide +kernel))
    ⟨by decide, by decide, by decide +kernel, by decide +kernel⟩

/-- What is read of the sample, in a package and at the top. -/
theorem backings_of_sample :
    overDirectory.finder.contents sampled "lib" = overArchive.finder.contents sampled "lib" ∧
      overDirectory.read? sampled "Main" = .ok (some [2]) ∧
      overArchive.read? sampled "Main" = .ok (some [2]) := by
  obtain ⟨hlist, hread, -⟩ := backings_of_tree sample overDirectory overArchive
    inDirectory_sample inArchive_sample rfl rfl rfl (by decide)
  have hlib : IsPackage "lib" := .segment ⟨by decide, by decide, by decide⟩
  have hmain : IsPackage "Main" := .segment ⟨by decide, by decide, by decide⟩
  have hfind : sample.files.find? (toPath "Main" ++ overDirectory.extension) = some [2] := by
    decide +kernel
  refine ⟨(hlist "lib" hlib).1.trans (hlist "lib" hlib).2.symm, ?_⟩
  rw [(hread "Main" hmain).1, (hread "Main" hmain).2, hfind]
  exact ⟨rfl, rfl⟩

/-- **The archive does not list what is at the top:** the directory has `Main` in the default
package, and the archive of the same tree has nothing there. -/
theorem not_interchangeable_sample :
    sample.InDirectory sampled ⟨"classes"⟩ ∧ sample.InArchive sampled ⟨"lib.zip"⟩ ∧
      overDirectory.finder.contents sampled "" = .ok [("Main", [2])] ∧
      overArchive.finder.contents sampled "" = .ok [] ∧
      ¬ overDirectory.Interchangeable sampled overArchive := by
  have hdirectory : overDirectory.finder.contents sampled "" = .ok [("Main", [2])] := by
    rw [contents_directory inDirectory_sample rfl (.inl rfl)]
    exact congrArg Except.ok (by decide +kernel)
  have harchive : overArchive.finder.contents sampled "" = .ok [] :=
    contents_archive_default inArchive_sample rfl
  refine ⟨inDirectory_sample, inArchive_sample, hdirectory, harchive, fun h => ?_⟩
  have hsame := h.1 "" (.inl rfl)
  rw [hdirectory, harchive] at hsame
  cases hsame

end FileTree
end LiveBuild
