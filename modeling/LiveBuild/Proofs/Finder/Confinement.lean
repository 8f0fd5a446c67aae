/-
# What is read and listed below the roots

A name, or a package, is made a path, and the path is joined to each configured directory.  The
dots of a name become slashes, so a name that begins with a dot is an absolute path, which
takes the directory's place:

| name | joined to `classes` |
| --- | --- |
| `app.Main` | `classes/app/Main.class` |
| `app..Main` | `classes/app//Main.class` |
| `.etc.Main` | `/etc/Main.class` |
| `/etc/Main` | `/etc/Main.class` |

Every other name leads inside (`QualifiedName.LeadsInside`): its path lies below the directory,
whatever else is in it, since no `..` is left where dots are slashes
(`QualifiedName.liesBelow_join_iff`).  For such names a class path reads, and finders and root
directories list, below what is configured (`confined`).  The roots of a package are asked for
by a path and not by a name, so there a `..` leads out as well.
-/

import LiveBuild.ClassPath
import LiveBuild.FileSystem.Edit
import LiveBuild.Finder
import LiveBuild.Proofs.FileSystem.Below
import LiveBuild.StandardFiles.Directories

namespace LiveBuild

namespace Text

/-- The first piece of a text is what it begins with. -/
theorem exists_head_pieces (a : Char) (s : List Char) :
    ∃ p ps, pieces a s = p :: ps ∧ p <+: s := by
  induction s with
  | nil => exact ⟨[], [], rfl, List.prefix_refl _⟩
  | cons c s ih =>
    by_cases hc : c = a
    · exact ⟨[], pieces a s, by rw [pieces, if_pos hc], List.nil_prefix⟩
    · obtain ⟨p, ps, hs, hp⟩ := ih
      exact ⟨c :: p, ps, by rw [pieces, if_neg hc, hs], (List.prefix_cons_inj c).2 hp⟩

/-- A piece stands somewhere in the text. -/
theorem isInfix_of_mem_pieces {a : Char} {s p : List Char} (h : p ∈ pieces a s) : p <:+: s := by
  induction s generalizing p with
  | nil => simp_all [pieces]
  | cons c s ih =>
    by_cases hc : c = a
    · rw [pieces, if_pos hc, List.mem_cons] at h
      rcases h with rfl | h
      · exact List.nil_infix
      · exact List.infix_cons (ih h)
    · obtain ⟨q, qs, hs, hq⟩ := exists_head_pieces a s
      rw [pieces, if_neg hc, hs, List.mem_cons] at h
      rcases h with rfl | h
      · exact ((List.prefix_cons_inj c).2 hq).isInfix
      · exact List.infix_cons (ih (by simp [hs, h]))

/-- Twice a character stands only where the character does. -/
theorem twice_infix_of_append {x : Char} {s t : List Char} (hs : x ∉ s)
    (h : [x, x] <:+: s ++ t) : [x, x] <:+: t := by
  induction s with
  | nil => exact h
  | cons c s ih =>
    rw [List.mem_cons, not_or] at hs
    rw [List.cons_append, List.infix_cons_iff, List.cons_prefix_cons] at h
    rcases h with ⟨hc, -⟩ | h
    · exact absurd hc hs.1
    · exact ih hs.2 h

end Text

namespace QualifiedName

/-- A name that begins with neither a dot nor a slash. -/
def LeadsInside (name : String) : Prop :=
  ¬ Text.startsWith "." name = true ∧ ¬ Text.startsWith "/" name = true

instance (name : String) : Decidable (LeadsInside name) :=
  inferInstanceAs (Decidable (_ ∧ _))

variable {name extension : String}

/-- The path of a name begins at the root exactly if the name begins with a dot or a slash. -/
theorem startsWith_slash_iff (hslash : '/' ∉ extension.toList) (name : String) :
    Text.startsWith "/" (toPath name ++ extension) = true ↔ ¬ LeadsInside name := by
  have hpoint := Text.startsWith_iff_head? (p := ".") (c := '.') rfl
  have hroot := Text.startsWith_iff_head? (p := "/") (c := '/') rfl
  rw [LeadsInside, hroot, hroot, hpoint, toPath, Text.exchange, String.toList_append,
    String.toList_ofList]
  cases name.toList with
  | nil =>
    have hhead : extension.toList.head? ≠ some '/' := fun h => hslash (List.mem_of_head? h)
    simpa using hhead
  | cons c cs =>
    by_cases hc : c = '.' <;> simp [hc]

/-- **There is no way up in the path of a name,** if the extension has none. -/
theorem up_notMem_pieces (hup : ¬ ['.', '.'] <:+: extension.toList) (name : String) :
    ".." ∉ (Path.mk (toPath name ++ extension)).pieces := by
  intro h
  obtain ⟨p, hp, he⟩ := List.mem_map.1 h
  have hdots : p = ['.', '.'] := by rw [← String.toList_ofList (l := p), he]; rfl
  have hinfix := Text.isInfix_of_mem_pieces hp
  rw [hdots, String.toList_append] at hinfix
  refine hup (Text.twice_infix_of_append ?_ hinfix)
  -- every dot of the name is a slash now
  rw [toPath, Text.exchange, String.toList_ofList, List.mem_map]
  rintro ⟨c, -, hc⟩
  split at hc
  · cases hc
  · exact absurd hc ‹_›

/-- The path of a name, joined to a directory, lies below it exactly if the name leads inside. -/
theorem liesBelow_join_iff (hslash : '/' ∉ extension.toList)
    (hup : ¬ ['.', '.'] <:+: extension.toList) (name : String) :
    (∀ d : Path, d.LiesBelow (d.join (toPath name ++ extension))) ↔ LeadsInside name := by
  rw [Path.liesBelow_join_iff, startsWith_slash_iff hslash, not_not]
  exact and_iff_left (up_notMem_pieces hup name)

/-- The path of a package, joined to a directory, lies below it if the package leads inside. -/
theorem LeadsInside.liesBelow_join (h : LeadsInside name) (d : Path) :
    d.LiesBelow (d.join (toPath name)) := by
  have hjoin : d.LiesBelow (d.join (toPath name ++ "")) :=
    (liesBelow_join_iff (by simp) (by simp) name).2 h d
  rwa [String.append_empty] at hjoin

end QualifiedName

open QualifiedName

/-! ### Reading -/

/-- Two file systems that agree below the directories of a class path and on its archives. -/
structure ClassPath.AgreeBelow (c : ClassPath) (fs fs' : FileSystem) : Prop where
  directory : ∀ d p, .directory d ∈ c.entries → d.LiesBelow p →
    fs.isFile p = fs'.isFile p ∧ fs.read p = fs'.read p
  archive : ∀ a, .archive a ∈ c.entries → fs.read a = fs'.read a

/-- Whether and as what an archive opens depends on the bytes of its file alone. -/
theorem Archive.openAt_congr {fs fs' : FileSystem} {p : Path} (h : fs.read p = fs'.read p) :
    openAt fs p = openAt fs' p := by
  rw [openAt, openAt, h]

/-- What an archive has depends on the bytes of its file alone. -/
theorem Archive.readMember?_congr {fs fs' : FileSystem} {p : Path} (h : fs.read p = fs'.read p)
    (member : String) : readMember? fs p member = readMember? fs' p member := by
  rw [readMember?, readMember?, openAt_congr h]

namespace ClassPath

variable {c : ClassPath} {fs fs' : FileSystem} {name package : String} {s : Store}

/-- What a class path reads depends on what its entries read alone. -/
theorem firstHit_congr {relative : String} {entries : List ClassPathEntry}
    (h : ∀ e ∈ entries, e.read? fs relative = e.read? fs' relative) :
    firstHit fs relative entries = firstHit fs' relative entries := by
  induction entries with
  | nil => rfl
  | cons e entries ih =>
    rw [List.forall_mem_cons] at h
    rw [firstHit, firstHit, h.1, ih h.2]

/-- **A name is read from what lies below the directories, and from the archives.** -/
theorem read?_of_agreeBelow (hagree : c.AgreeBelow fs fs')
    (hbelow : ∀ d : Path, d.LiesBelow (d.join (c.relativePath name))) :
    c.read? fs name = c.read? fs' name := by
  refine firstHit_congr fun e he => ?_
  cases e with
  | directory d =>
    obtain ⟨hfile, hread⟩ := hagree.directory d _ he (hbelow d)
    rw [ClassPathEntry.read?, ClassPathEntry.read?, hfile, hread]
  | archive a => exact Archive.readMember?_congr (hagree.archive a he) _

/-- A lookup is the same, and does the same, over any file system from which the name is read
the same. -/
theorem find?_of_read? (h : c.read? fs' name = c.read? s.files name) :
    (c.find? name).attempt { s with files := fs' } =
      (((c.find? name).attempt s).1, { ((c.find? name).attempt s).2 with files := fs' }) := by
  unfold Action.attempt find?
  simp only [h]
  cases (s.caches.get c.cache).find? name with
  | some l => rfl
  | none =>
    cases c.read? s.files name with
    | error e => rfl
    | ok bytes =>
      cases bytes with
      | none => rfl
      | some bytes =>
        have hcalls : c.materializer.callsIn { s with files := fs' } = c.materializer.callsIn s :=
          rfl
        simp only [Materializer.load, Materializer.run, hcalls]
        cases c.materializer.answer (c.materializer.callsIn s) ⟨name, .compiled, bytes⟩ <;> rfl

/-! ### Listing -/

/-- A directory that holds a package is the package's path joined to a configured directory. -/
theorem exists_join_of_mem_resources {roots : List ResourceRoot} {p : Path}
    (hroots : c.resources package fs = .ok roots) (hp : .directory p ∈ roots) :
    ∃ d, .directory d ∈ c.entries ∧ p = d.join package := by
  obtain ⟨e, he, block, hblock, hmem⟩ := (mem_gather hroots).1 hp
  cases e with
  | directory d =>
    refine ⟨d, he, ?_⟩
    rw [ClassPathEntry.resources] at hblock
    split at hblock <;> cases hblock <;> simp at hmem
    exact hmem
  | archive a =>
    rw [ClassPathEntry.resources] at hblock
    split at hblock
    · cases hblock
    · split at hblock <;> cases hblock <;> simp at hmem

end ClassPath

/-- A file that is listed for a directory is directly in it. -/
theorem Finder.exists_child_of_mem_listRoot {f : Finder} {fs : FileSystem} {package : String}
    {dir p : Path} {found : List ResolvedArtifact} {r : ResolvedArtifact}
    (hfound : f.listRoot fs package (.directory dir) = .ok found) (hr : r ∈ found)
    (hp : r.place = .file p) : ∃ n : FileName, p = dir.child n.text := by
  rw [listRoot] at hfound
  split at hfound
  · cases hfound
  · obtain rfl := Except.ok.inj hfound
    rw [inOrder, List.mem_mergeSort, List.mem_filterMap] at hr
    obtain ⟨n, -, hn⟩ := hr
    refine ⟨n, ?_⟩
    rw [fileArtifact?] at hn
    split at hn
    · obtain ⟨stem, -, rfl⟩ := Option.map_eq_some_iff.1 hn
      exact (ArtifactPlace.file.inj hp).symm
    · cases hn

/-- A root that is an archive has no files. -/
theorem Finder.place_ne_file_of_mem_listRoot {f : Finder} {fs : FileSystem}
    {package parent : String} {a p : Path} {found : List ResolvedArtifact} {r : ResolvedArtifact}
    (hfound : f.listRoot fs package (.archive a parent) = .ok found) (hr : r ∈ found) :
    r.place ≠ .file p := by
  rw [listRoot] at hfound
  split at hfound
  · cases hfound
  · obtain rfl := Except.ok.inj hfound
    rw [inOrder, List.mem_mergeSort, List.mem_filterMap] at hr
    obtain ⟨name, -, hname⟩ := hr
    rw [memberArtifact?, Option.bind_eq_bind, Option.bind_eq_some_iff] at hname
    obtain ⟨rest, -, hrest⟩ := hname
    split at hrest
    · cases hrest
    · obtain rfl := Option.some.inj hrest
      exact ArtifactPlace.noConfusion

/-- **A finder lists files below the directories of its class path,** for a package that leads
inside. -/
theorem Finder.liesBelow_of_mem_find {f : Finder} {c : ClassPath} {fs : FileSystem}
    {package : String} {found : List ResolvedArtifact} {r : ResolvedArtifact} {p : Path}
    (hf : f.host.resources = c.resources) (hpackage : LeadsInside package)
    (hfound : f.find fs package = .ok found) (hr : r ∈ found) (hp : r.place = .file p) :
    ∃ d, .directory d ∈ c.entries ∧ d.LiesBelow p := by
  rw [find, hf] at hfound
  split at hfound
  · cases hfound
  · rename_i roots hroots
    obtain ⟨root, hroot, block, hblock, hmem⟩ := (mem_gather hfound).1 hr
    cases root with
    | directory dir =>
      obtain ⟨n, rfl⟩ := exists_child_of_mem_listRoot hblock hmem hp
      obtain ⟨d, hd, rfl⟩ := ClassPath.exists_join_of_mem_resources hroots hroot
      exact ⟨d, hd, (hpackage.liesBelow_join d).fileName n⟩
    | archive a parent => exact absurd hp (place_ne_file_of_mem_listRoot hblock hmem)

namespace Directories

variable {fs : FileSystem} {kinds : List Kind} {recurse : Bool} {package : String}
  {root dir : Path} {files : List FileHandle}

/-- **What is listed for a directory lies below it,** however deep the listing goes. -/
theorem liesBelow_of_mem_listDirectory (hdir : root.LiesBelow dir)
    (hfiles : listDirectory fs kinds recurse dir package = .ok files) {f : FileHandle}
    (hf : f ∈ files) : ∃ file, f = .standard file ∧ root.LiesBelow file.path := by
  -- the deeper a directory, the longer its path, and no longer path than `maxPathBytes` leads
  -- anywhere
  generalize hroom : FileSystem.maxPathBytes - dir.text.utf8ByteSize = room
  induction room using Nat.strongRecOn generalizing dir package files with
  | ind room ih =>
    subst hroom
    rw [listDirectory] at hfiles
    split at hfiles
    · cases hfiles
    · obtain ⟨n, -, block, hblock, hmem⟩ := (mem_gather hfiles).1 hf
      split at hblock
      · rename_i hsub
        split at hblock
        · have hlonger := bytes_lt_child dir n
          have hshort := FileSystem.bytes_lt_of_isDirectory hsub
          exact ih _ (by omega) (hdir.fileName n) hblock hmem rfl
        · cases hblock
          cases hmem
      · cases hblock
        rw [Option.mem_toList, fileAt?] at hmem
        obtain ⟨found, -, rfl⟩ := Option.map_eq_some_iff.1 hmem
        exact ⟨_, rfl, hdir.fileName n⟩

/-- **Root directories list files below themselves,** for a package that leads inside. -/
theorem liesBelow_of_mem_list {d : Directories} {location : Location}
    (hpackage : LeadsInside package)
    (hfiles : d.list fs location package kinds recurse = .ok files) {f : FileHandle}
    (hf : f ∈ files) :
    ∃ file, f = .standard file ∧ ∃ root ∈ d.rootsOf location, root.LiesBelow file.path := by
  obtain ⟨root, hroot, block, hblock, hmem⟩ := (mem_gather hfiles).1 hf
  rw [listRoot] at hblock
  split at hblock
  · obtain ⟨file, rfl, hbelow⟩ :=
      liesBelow_of_mem_listDirectory (hpackage.liesBelow_join root) hblock hmem
    exact ⟨file, rfl, root, hroot, hbelow⟩
  · cases hblock
    cases hmem

end Directories

namespace ClassPath

/-- **What is touched lies below the roots,** for every name and every package that leads inside,
and an extension that has neither a slash nor two dots in it.

* The path of a name, joined to a directory, lies below it, whatever the directory, exactly if
  the name leads inside.
* Such a name is read from what is below the directories and from the archives: over any other
  file system that agrees there, it is read the same, and to look it up answers the same and
  does the same.
* The path of a package, joined to a directory, lies below it, whatever the directory, exactly
  if it is relative and never goes up.  Then so do the directories that hold the package.
* A finder lists files below the directories, and root directories list files below
  themselves. -/
theorem confined {c : ClassPath} (hslash : '/' ∉ c.extension.toList)
    (hup : ¬ ['.', '.'] <:+: c.extension.toList) {f : Finder}
    (hf : f.host.resources = c.resources) (ds : Directories) :
    (∀ name, (∀ d : Path, d.LiesBelow (d.join (c.relativePath name))) ↔ LeadsInside name) ∧
      (∀ name, LeadsInside name → ∀ s fs', c.AgreeBelow s.files fs' →
        c.read? fs' name = c.read? s.files name ∧
          (c.find? name).attempt { s with files := fs' } =
            (((c.find? name).attempt s).1,
              { ((c.find? name).attempt s).2 with files := fs' })) ∧
      (∀ path, (∀ d : Path, d.LiesBelow (d.join path)) ↔
        ¬ Text.startsWith "/" path = true ∧ ".." ∉ (Path.mk path).pieces) ∧
      (∀ path, ¬ Text.startsWith "/" path = true → ".." ∉ (Path.mk path).pieces →
        ∀ fs roots p, c.resources path fs = .ok roots → .directory p ∈ roots →
          ∃ d, .directory d ∈ c.entries ∧ d.LiesBelow p) ∧
      (∀ package, LeadsInside package → ∀ fs found, f.find fs package = .ok found →
        ∀ r ∈ found, ∀ p, r.place = .file p → ∃ d, .directory d ∈ c.entries ∧ d.LiesBelow p) ∧
      ∀ package, LeadsInside package → ∀ fs location kinds recurse files,
        ds.list fs location package kinds recurse = .ok files → ∀ g ∈ files,
          ∃ file, g = .standard file ∧ ∃ d ∈ ds.rootsOf location, d.LiesBelow file.path := by
  have hjoin := liesBelow_join_iff hslash hup
  refine ⟨hjoin, fun name hname s fs' hagree => ?_, Path.liesBelow_join_iff, ?_, ?_, ?_⟩
  · have hread := (read?_of_agreeBelow hagree ((hjoin name).2 hname)).symm
    exact ⟨hread, find?_of_read? hread⟩
  · intro path hrelative hnever fs roots p hroots hp
    obtain ⟨d, hd, rfl⟩ := exists_join_of_mem_resources hroots hp
    exact ⟨d, hd, Path.liesBelow_join hrelative hnever d⟩
  · intro package hpackage fs found hfound r hr p hp
    exact Finder.liesBelow_of_mem_find hf hpackage hfound hr hp
  · intro package hpackage fs location kinds recurse files hfiles g hg
    exact Directories.liesBelow_of_mem_list hpackage hfiles hg

/-- A class path of one directory. -/
def classes : ClassPath := ⟨[.directory ⟨"/classes"⟩], ".class", .image 0, ⟨0⟩⟩

/-- A file system with one file below that directory and one elsewhere. -/
def elsewhere : FileSystem :=
  (FileSystem.empty.write ⟨"/classes/app/A.class"⟩ [1]).write ⟨"/etc/B.class"⟩ [2]

/-- **A package that leads inside** is listed below the directory; a name that begins with a dot
is not joined to it. -/
theorem confined_classes :
    (∃ d, .directory d ∈ classes.entries ∧ d.LiesBelow ⟨"/classes/app/A.class"⟩) ∧
      ¬ ∀ d : Path, d.LiesBelow (d.join (classes.relativePath ".etc.B")) := by
  obtain ⟨hjoin, -, -, -, hfind, -⟩ := confined (c := classes) (by decide) (by decide +kernel)
    (f := ⟨classes.toHost, ".class"⟩) rfl .none
  have hfound : Finder.find ⟨classes.toHost, ".class"⟩ elsewhere "app" =
      .ok [⟨"app.A", .file ⟨"/classes/app/A.class"⟩⟩] :=
    eq_ok_of_toOption_eq_some (by decide +kernel)
  exact ⟨hfind "app" (by decide) _ _ hfound _ (.head _) _ rfl, mt (hjoin ".etc.B").1 (by decide)⟩

/-- **Names, paths of packages and packages that lead out of the directory:** a file elsewhere is
read, directories elsewhere are said to hold a package, and a file elsewhere is listed. -/
theorem leads_out_of_classes :
    (classes.read? elsewhere ".etc.B" = .ok (some [2]) ∧
        ¬ Path.LiesBelow ⟨"/classes"⟩ (Path.join ⟨"/classes"⟩ (classes.relativePath ".etc.B"))) ∧
      (classes.resources "/" elsewhere = .ok [.directory ⟨"/"⟩] ∧
        ¬ Path.LiesBelow ⟨"/classes"⟩ ⟨"/"⟩) ∧
      (classes.resources ".." elsewhere = .ok [.directory ⟨"/classes/.."⟩] ∧
        ¬ Path.LiesBelow ⟨"/classes"⟩ ⟨"/classes/.."⟩) ∧
      ((Directories.none.withRoot .classPath ⟨"/classes"⟩).list elsewhere .classPath ".etc"
          [.compiled] false = .ok [.standard ⟨⟨"/etc/B.class"⟩, .compiled, ".etc.B"⟩] ∧
        ¬ Path.LiesBelow ⟨"/classes"⟩ ⟨"/etc/B.class"⟩) := by
  refine ⟨⟨?_, by decide⟩, ⟨?_, by decide⟩, ⟨?_, by decide⟩, ⟨?_, by decide⟩⟩ <;>
    exact eq_ok_of_toOption_eq_some (by decide +kernel)

end ClassPath
end LiveBuild
