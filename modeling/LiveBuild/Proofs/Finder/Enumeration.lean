/-
# Enumeration of packages

A finder lists a package root by root.  What a root holds of the package is known without any order
(`ResourceRoot.Has`), and a block is the one list of it in strictly increasing order of names
(`Finder.IsBlock`, `IsBlock.eq`):

| root | holds one artifact for | named | at |
| --- | --- | --- | --- |
| directory | each file directly in it, links followed, that ends with the extension | the package, a dot and the stem | the file's path |
| archive | each member that is the root's path, one slash, and a rest without slashes that ends with the extension | the member's path up to the extension, slashes turned into dots | the member |

The names are different for different files, and for different members (`fileArtifact?_inj`,
`memberArtifact?_inj`), so sorting them leaves no choice.  Whatever order a directory or an archive
gives its entries in, a root has the same block (`listRoot_of_reordered`).  A listing is the blocks
of all roots, one after the other, and it succeeds exactly if the host names its roots and each of
them can be read (`find_exact`).
-/

import LiveBuild.Proofs.Finder.Backing
import Mathlib.Data.List.Forall2

namespace LiveBuild

open QualifiedName

variable {fs fs' : FileSystem} {package extension : String} {root : ResourceRoot}
  {r t : ResolvedArtifact}

namespace ResourceRoot

/-- The root can be listed: it is a directory, or an archive that opens. -/
def Readable (fs : FileSystem) : ResourceRoot → Prop
  | .directory dir => ∃ names, fs.readDirectory dir = .ok names
  | .archive path _ => ∃ a, Archive.openAt fs path = .ok a

/-- What a root holds of a package. -/
inductive Has (fs : FileSystem) (package extension : String) :
    ResourceRoot → ResolvedArtifact → Prop
  | file {dir : Path} {n : FileName} {stem : String}
      (regular : fs.isFile (dir.child n.text) = true) (name : n.text = stem ++ extension) :
      Has fs package extension (.directory dir)
        ⟨member package stem, .file (dir.child n.text)⟩
  | member {path : Path} {parent : String} {a : Archive} {stem : String}
      (opens : Archive.openAt fs path = .ok a)
      (listed : Text.withoutTrailing '/' parent ++ "/" ++ (stem ++ extension) ∈ a.names)
      (flat : '/' ∉ (stem ++ extension).toList) :
      Has fs package extension (.archive path parent)
        ⟨ofPath (Text.withoutTrailing '/' parent ++ "/" ++ stem),
          .member path (Text.withoutTrailing '/' parent ++ "/" ++ (stem ++ extension))⟩

/-- Two file systems have the same entries at a root, perhaps in different orders. -/
inductive Reordered (fs fs' : FileSystem) : ResourceRoot → Prop
  | directory {dir : Path} {names names' : List FileName}
      (here : fs.readDirectory dir = .ok names) (there : fs'.readDirectory dir = .ok names')
      (perm : names.Perm names')
      (files : ∀ n ∈ names, fs'.isFile (dir.child n.text) = fs.isFile (dir.child n.text)) :
      Reordered fs fs' (.directory dir)
  | archive {path : Path} {parent : String} {a a' : Archive}
      (here : Archive.openAt fs path = .ok a) (there : Archive.openAt fs' path = .ok a')
      (perm : a.names.Perm a'.names) : Reordered fs fs' (.archive path parent)

/-- The order of entries can be changed back. -/
theorem Reordered.symm (h : root.Reordered fs fs') : root.Reordered fs' fs := by
  cases h with
  | directory here there perm files =>
    exact .directory there here perm.symm fun n hn => (files n (perm.mem_iff.2 hn)).symm
  | archive here there perm => exact .archive there here perm.symm

/-- What has its entries in another order can still be listed. -/
theorem Reordered.readable (h : root.Reordered fs fs') : root.Readable fs' := by
  cases h with
  | directory _ there => exact ⟨_, there⟩
  | archive _ there => exact ⟨_, there⟩

/-- What a root holds it holds in another order of its entries. -/
theorem Has.of_reordered (h : root.Reordered fs fs') (hr : root.Has fs package extension r) :
    root.Has fs' package extension r := by
  cases hr with
  | file regular name =>
    cases h with
    | directory here _ _ files =>
      exact .file ((files _ (FileSystem.mem_names_of_isFile here regular)).trans regular) name
  | member opens listed flat =>
    cases h with
    | archive here there perm =>
      obtain rfl := Except.ok.inj (here.symm.trans opens)
      exact .member there (perm.mem_iff.1 listed) flat

/-- **The order of the entries does not change what a root holds.** -/
theorem has_iff_of_reordered (h : root.Reordered fs fs') :
    root.Has fs package extension r ↔ root.Has fs' package extension r :=
  ⟨Has.of_reordered h, Has.of_reordered h.symm⟩

/-- At one place a root holds one artifact. -/
theorem Has.eq_of_place (hr : root.Has fs package extension r)
    (ht : root.Has fs package extension t) (h : r.place = t.place) : r = t := by
  cases hr with
  | file regular name =>
    cases ht with
    | file regular' name' =>
      have htext := Path.child_inj.1 (ArtifactPlace.file.inj h)
      rw [name, name', String.append_left_inj] at htext
      rw [ResolvedArtifact.mk.injEq, htext]
      exact ⟨rfl, h⟩
  | member opens listed flat =>
    cases ht with
    | member opens' listed' flat' =>
      have hstem := (ArtifactPlace.member.inj h).2
      rw [String.append_right_inj, String.append_left_inj] at hstem
      rw [hstem]

end ResourceRoot

namespace Finder

variable {f : Finder} {block block' : List ResolvedArtifact}

/-! ### The block of a root -/

/-- A list is the block of a root: what the root holds of the package, in strictly increasing order
of names, and once for each place. -/
structure IsBlock (f : Finder) (fs : FileSystem) (package : String) (root : ResourceRoot)
    (block : List ResolvedArtifact) : Prop where
  increasing : block.Pairwise fun r t => r.binaryName < t.binaryName
  mem_iff : ∀ r, r ∈ block ↔ root.Has fs package f.extension r
  once : (block.map ResolvedArtifact.place).Nodup

/-- **What a root holds leaves no choice for its block.** -/
theorem IsBlock.eq (h : f.IsBlock fs package root block) (h' : f.IsBlock fs' package root block')
    (hhas : ∀ r, root.Has fs package f.extension r ↔ root.Has fs' package f.extension r) :
    block = block' :=
  eq_of_pairwise_lt ResolvedArtifact.binaryName h.increasing h'.increasing fun r => by
    rw [h.mem_iff, hhas, h'.mem_iff]

/-- A list that has exactly what a root holds, with the names strictly increasing, is its block. -/
theorem isBlock_of_mem_iff (hlt : block.Pairwise fun r t => r.binaryName < t.binaryName)
    (hmem : ∀ r, r ∈ block ↔ root.Has fs package f.extension r) :
    f.IsBlock fs package root block := by
  refine ⟨hlt, hmem, List.pairwise_map.2 ?_⟩
  refine hlt.imp_of_mem fun {r t} hr ht hname hplace => ?_
  obtain rfl := ((hmem r).1 hr).eq_of_place ((hmem t).1 ht) hplace
  exact String.lt_irrefl _ hname

/-- A directory that can be listed has a block. -/
theorem exists_block_directory (f : Finder) (package : String) {dir : Path} {names : List FileName}
    (hnames : fs.readDirectory dir = .ok names) :
    ∃ block, f.listRoot fs package (.directory dir) = .ok block ∧
      f.IsBlock fs package (.directory dir) block := by
  have hnodup := FileSystem.nodup_of_readDirectory hnames
  refine ⟨inOrder (names.filterMap (f.fileArtifact? fs package dir)), ?_,
    isBlock_of_mem_iff ?_ fun r => ?_⟩
  · rw [listRoot, hnames]
  · exact pairwise_mergeSort_of_nodup _ (nodup_binaryNames hnodup fileArtifact?_inj)
  · rw [mem_inOrder, List.mem_filterMap]
    constructor
    · rintro ⟨n, -, hr⟩
      obtain ⟨hfile, stem, hn, rfl⟩ := fileArtifact?_eq_some_iff.1 hr
      exact .file hfile hn
    · intro hr
      cases hr with
      | file regular name =>
        exact ⟨_, FileSystem.mem_names_of_isFile hnames regular,
          fileArtifact?_eq_some_iff.2 ⟨regular, _, name, rfl⟩⟩

/-- An archive that opens has a block. -/
theorem exists_block_archive (f : Finder) (package : String) {path : Path} (parent : String)
    {a : Archive} (hopen : Archive.openAt fs path = .ok a) :
    ∃ block, f.listRoot fs package (.archive path parent) = .ok block ∧
      f.IsBlock fs package (.archive path parent) block := by
  refine ⟨inOrder (a.names.filterMap
      (f.memberArtifact? path (Text.withoutTrailing '/' parent ++ "/"))), ?_,
    isBlock_of_mem_iff ?_ fun r => ?_⟩
  · rw [listRoot, hopen]
  · exact pairwise_mergeSort_of_nodup _
      (nodup_binaryNames a.members.nodup_keys memberArtifact?_inj)
  · rw [mem_inOrder, List.mem_filterMap]
    constructor
    · rintro ⟨name, hname, hr⟩
      obtain ⟨stem, hflat, rfl, rfl⟩ := memberArtifact?_eq_some_iff.1 hr
      exact .member hopen hname hflat
    · intro hr
      cases hr with
      | member opens listed flat =>
        obtain rfl := Except.ok.inj (hopen.symm.trans opens)
        exact ⟨_, listed, memberArtifact?_eq_some_iff.2 ⟨_, flat, rfl, rfl⟩⟩

/-- **A root that can be read is listed as its block.** -/
theorem exists_block (f : Finder) (package : String) (h : root.Readable fs) :
    ∃ block, f.listRoot fs package root = .ok block ∧ f.IsBlock fs package root block := by
  cases root with
  | directory dir =>
    obtain ⟨names, hnames⟩ := h
    exact exists_block_directory f package hnames
  | archive path parent =>
    obtain ⟨a, hopen⟩ := h
    exact exists_block_archive f package parent hopen

/-- Only a root that can be read is listed. -/
theorem readable_of_listRoot (h : f.listRoot fs package root = .ok block) : root.Readable fs := by
  cases root with
  | directory dir =>
    rw [listRoot] at h
    split at h
    · cases h
    · exact ⟨_, by assumption⟩
  | archive path parent =>
    rw [listRoot] at h
    split at h
    · cases h
    · exact ⟨_, by assumption⟩

/-- **A root is listed exactly if it is a directory, or an archive that opens.** -/
theorem exists_listRoot_iff :
    (∃ block, f.listRoot fs package root = .ok block) ↔ root.Readable fs := by
  refine ⟨fun ⟨block, h⟩ => readable_of_listRoot h, fun h => ?_⟩
  obtain ⟨block, hlist, -⟩ := exists_block f package h
  exact ⟨block, hlist⟩

/-- What is listed of a root is its block. -/
theorem isBlock_of_listRoot (h : f.listRoot fs package root = .ok block) :
    f.IsBlock fs package root block := by
  obtain ⟨block', hlist, hblock⟩ := exists_block f package (readable_of_listRoot h)
  rwa [Except.ok.inj (h.symm.trans hlist)]

/-- **A root's entries can come in any order:** its block is the same. -/
theorem listRoot_of_reordered (h : f.listRoot fs package root = .ok block)
    (hroot : root.Reordered fs fs') : f.listRoot fs' package root = .ok block := by
  obtain ⟨block', hlist, hblock'⟩ := exists_block f package hroot.readable
  rw [hlist, (isBlock_of_listRoot h).eq hblock' fun r => ResourceRoot.has_iff_of_reordered hroot]

/-! ### The whole listing -/

/-- What is found is one block for each root, in the order of the roots. -/
theorem forall₂_of_find {found : List ResolvedArtifact} (h : f.find fs package = .ok found) :
    ∃ roots blocks, f.host.resources (toPath package) fs = .ok roots ∧
      List.Forall₂ (fun root block => f.listRoot fs package root = .ok block) roots blocks ∧
      found = blocks.flatten := by
  rw [find] at h
  split at h
  · cases h
  · rename_i roots hroots
    obtain ⟨blocks, hmap, hflat⟩ := gather_eq_ok_iff.1 h
    rw [← List.forall₂_eq_eq_eq, List.forall₂_map_left_iff, List.forall₂_map_right_iff] at hmap
    exact ⟨roots, blocks, hroots, hmap, hflat⟩

/-- **A listing succeeds exactly if the host names its roots and each of them can be read.** -/
theorem exists_find_iff :
    (∃ found, f.find fs package = .ok found) ↔
      ∃ roots, f.host.resources (toPath package) fs = .ok roots ∧
        ∀ root ∈ roots, root.Readable fs := by
  rw [find]
  cases f.host.resources (toPath package) fs with
  | error e => simp
  | ok roots => simp only [exists_gather_iff, exists_listRoot_iff, Except.ok.injEq, exists_eq_left']

/-- **Packages are enumerated exactly, and in an order that depends on the names alone.**  A listing
succeeds exactly if the host names its roots and each of them can be read.  It is one block for
each root, in their order; and a block is the same for every order in which the root gives its
entries. -/
theorem find_exact (f : Finder) (fs : FileSystem) (package : String) :
    ((∃ found, f.find fs package = .ok found) ↔
      ∃ roots, f.host.resources (toPath package) fs = .ok roots ∧
        ∀ root ∈ roots, root.Readable fs) ∧
    ∀ found, f.find fs package = .ok found →
      ∃ roots blocks, f.host.resources (toPath package) fs = .ok roots ∧
        List.Forall₂ (fun root block => f.IsBlock fs package root block ∧
          ∀ fs', root.Reordered fs fs' → f.listRoot fs' package root = .ok block) roots blocks ∧
        found = blocks.flatten := by
  refine ⟨exists_find_iff, fun found hfound => ?_⟩
  obtain ⟨roots, blocks, hroots, hblocks, hflat⟩ := forall₂_of_find hfound
  refine ⟨roots, blocks, hroots, hblocks.imp fun root block hblock => ?_, hflat⟩
  exact ⟨isBlock_of_listRoot hblock, fun fs' => listRoot_of_reordered hblock⟩

/-! ### Entries in another order -/

/-- A package in a directory and in an archive. -/
def written : FileSystem :=
  ((FileSystem.empty.write ⟨"classes/lib/Core.code"⟩ [1]).write ⟨"classes/lib/App.code"⟩ [2]).write
    ⟨"old.zip"⟩ (Archive.pack [("lib/Util.code", [3]), ("lib/.code", [4])])

/-- The same files and members, written the other way round. -/
def rewritten : FileSystem :=
  ((FileSystem.empty.write ⟨"classes/lib/App.code"⟩ [2]).write ⟨"classes/lib/Core.code"⟩ [1]).write
    ⟨"old.zip"⟩ (Archive.pack [("lib/.code", [4]), ("lib/Util.code", [3])])

/-- The finder over both roots, the archive's written with slashes behind. -/
def overBoth : Finder :=
  ⟨.fixed [.directory ⟨"classes/lib"⟩, .archive ⟨"old.zip"⟩ "lib//"], ".code"⟩

def appFile : FileName := ⟨"App.code", by decide, by decide, by decide, by decide⟩

def coreFile : FileName := ⟨"Core.code", by decide, by decide, by decide, by decide⟩

/-- An archive is known to be reordered from the names it opens with. -/
theorem reordered_archive_of_names {path : Path} {parent : String} {ns ns' : List String}
    (here : (Archive.openAt fs path).toOption.map Archive.names = some ns)
    (there : (Archive.openAt fs' path).toOption.map Archive.names = some ns')
    (perm : ns.Perm ns') : (ResourceRoot.archive path parent).Reordered fs fs' := by
  obtain ⟨a, ha, rfl⟩ := Option.map_eq_some_iff.1 here
  obtain ⟨a', ha', rfl⟩ := Option.map_eq_some_iff.1 there
  exact .archive (eq_ok_of_toOption_eq_some ha) (eq_ok_of_toOption_eq_some ha') perm

theorem readDirectory_written :
    written.readDirectory ⟨"classes/lib"⟩ = .ok [coreFile, appFile] :=
  eq_ok_of_toOption_eq_some (by decide +kernel)

theorem readDirectory_rewritten :
    rewritten.readDirectory ⟨"classes/lib"⟩ = .ok [appFile, coreFile] :=
  eq_ok_of_toOption_eq_some (by decide +kernel)

/-- The directory has the same names in both file systems, the other way round. -/
theorem reordered_classes : (ResourceRoot.directory ⟨"classes/lib"⟩).Reordered written rewritten :=
  .directory readDirectory_written readDirectory_rewritten (.swap _ _ _) (by decide +kernel)

/-- The archive has the same members in both file systems, the other way round. -/
theorem reordered_old : (ResourceRoot.archive ⟨"old.zip"⟩ "lib//").Reordered written rewritten :=
  have here : (Archive.openAt written ⟨"old.zip"⟩).toOption.map Archive.names =
      some ["lib/Util.code", "lib/.code"] := by decide +kernel
  have there : (Archive.openAt rewritten ⟨"old.zip"⟩).toOption.map Archive.names =
      some ["lib/.code", "lib/Util.code"] := by decide +kernel
  reordered_archive_of_names here there (.swap _ _ _)

/-- What was written the other way round is found in the same order. -/
theorem find_exact_rewritten :
    written.readDirectory ⟨"classes/lib"⟩ = .ok [coreFile, appFile] ∧
      rewritten.readDirectory ⟨"classes/lib"⟩ = .ok [appFile, coreFile] ∧
      ∃ found, overBoth.find written "lib" = .ok found ∧
        overBoth.find rewritten "lib" = .ok found := by
  refine ⟨readDirectory_written, readDirectory_rewritten, ?_⟩
  obtain ⟨hsucceeds, hexact⟩ := find_exact overBoth written "lib"
  obtain ⟨found, hfound⟩ := hsucceeds.2 ⟨_, rfl, List.forall_mem_cons.2
    ⟨reordered_classes.symm.readable, List.forall_mem_singleton.2 reordered_old.symm.readable⟩⟩
  obtain ⟨roots, blocks, hroots, hblocks, hflat⟩ := hexact found hfound
  obtain rfl := Except.ok.inj hroots
  obtain ⟨classes, _, ⟨-, hclasses⟩, hrest, rfl⟩ := List.forall₂_cons_left_iff.1 hblocks
  obtain ⟨old, _, ⟨-, hold⟩, hnone, rfl⟩ := List.forall₂_cons_left_iff.1 hrest
  obtain rfl := List.forall₂_nil_left_iff.1 hnone
  refine ⟨found, hfound, ?_⟩
  show gather (overBoth.listRoot rewritten "lib") _ = _
  rw [gather_cons_eq_ok_iff]
  refine ⟨classes, old, hclasses rewritten reordered_classes, ?_, by rw [hflat]; simp⟩
  rw [gather_singleton, hold rewritten reordered_old]

end Finder
end LiveBuild
