/-
# What a class path shows

A toolchain that lists a package on the class path sees three things: the platform's files,
the finished artifacts that the manager's own loader owns, and what a host has in
directories and archives.  A name of that package can be loaded (`Loadable`) from one thing
more, the loaders between the own one and the class path, which stand in a chain
(`Host.IsChain`).

| a name is | loaded from | listed |
| --- | --- | --- |
| owned by the manager's own loader, finished | the loader | yes |
| owned by a loader of the chain alone | that loader | no: it hands the question for roots on |
| owned by none, and read by the class path | the class path | yes, unless the extension has a slash |

`exists_mem_list_iff` says exactly which names are listed.  Roots are directories and
archives, so an artifact in memory is none of them, and listings are one level deep.
-/

import LiveBuild.FileManager
import LiveBuild.Proofs.Finder.Listing
import LiveBuild.StandardFiles.Directories
import LiveBuild.FileSystem.Edit

namespace LiveBuild

open QualifiedName

/-- A host that is a chain of loaders, the closest first, over a class path. -/
inductive Host.IsChain (c : ClassPath) : List Loader → Host → Prop
  | nil : IsChain c [] c.toHost
  | cons {l : Loader} {ls : List Loader} (h : IsChain c ls l.parent) : IsChain c (l :: ls) l.toHost

/-- A chain of loaders has the roots of its class path, and no others. -/
theorem Host.IsChain.resources_eq {c : ClassPath} {ls : List Loader} {h : Host}
    (hh : h.IsChain c ls) : h.resources = c.resources := by
  induction hh with
  | nil => rfl
  | cons _ ih => exact ih

namespace FileManager

/-- A loader owns a finished artifact, of the kind that class paths hold, under its name. -/
def Finished (l : Loader) (name : String) (s : Store) : Prop :=
  ∃ r, l.artifact? name s = some r ∧ isListed s r = true ∧ (s.artifacts.get r).name = name

/-- A name can be loaded through loaders, the closest first, over a class path: the closest one
that owns the name has finished it, or none owns it and the class path reads it. -/
def Loadable (c : ClassPath) : List Loader → String → Store → Prop
  | [], name, s => ∃ bytes, c.read? s.files name = .ok (some bytes)
  | l :: ls, name, s => Finished l name s ∨ (l.artifact? name s = none ∧ Loadable c ls name s)

variable {m : FileManager} {c : ClassPath} {ls : List Loader} {p t : String} {s : Store}
  {files : List FileHandle}

/-- What a loader has in a package is what it owns under the names in the package and lists. -/
theorem mem_ownedIn_iff {package : String} {r : Ref Artifact} :
    r ∈ m.ownedIn package s ↔ ∃ key, QualifiedName.package key = package ∧
      m.loader.artifact? key s = some r ∧ isListed s r = true := by
  simp only [ownedIn, List.mem_filterMap, List.mem_filter, decide_eq_true_eq,
    Option.filter_eq_some_iff]
  constructor
  · rintro ⟨key, ⟨-, hpackage⟩, howned, hlisted⟩
    exact ⟨key, hpackage, howned, hlisted⟩
  · rintro ⟨key, hpackage, howned, hlisted⟩
    refine ⟨key, ⟨?_, hpackage⟩, howned, hlisted⟩
    rw [Loader.names, Table.mem_sorted, ← Table.find?_isSome_iff]
    exact Option.isSome_of_eq_some howned

/-- **Which names a class path lists:** those of the platform's files, of the finished artifacts
that the manager's own loader owns in the package, and of what the class path has. -/
theorem exists_mem_list_iff (hchain : m.finder.host.IsChain c ls)
    (hextension : m.finder.extension = c.extension) (hp : IsPackage p) (ht : IsSegment t)
    (hlist : m.list .classPath p [.compiled] false s = .ok files) :
    (∃ f ∈ files, m.binaryName .classPath f s = some (member p t)) ↔
      (∃ std, m.standard.list s.files .classPath p [.compiled] false = .ok std ∧
        ∃ f ∈ std, m.binaryName .classPath f s = some (member p t)) ∨
      (∃ r ∈ m.ownedIn p s, (s.artifacts.get r).name = member p t) ∨
      ('/' ∉ c.extension.toList ∧ c.read? s.files (member p t) ≠ .ok none) := by
  rw [list] at hlist
  cases hstd : m.standard.list s.files .classPath p [.compiled] false with
  | error e =>
    rw [hstd] at hlist
    cases hlist
  | ok std =>
    rw [hstd] at hlist
    cases hfind : m.finder.find s.files p with
    | error e => simp [hfind] at hlist
    | ok found =>
      simp only [hfind, List.mem_singleton, and_self, if_true, Except.ok.injEq] at hlist
      subst hlist
      rw [← Finder.exists_mem_find_iff hp ht hchain.resources_eq hextension hfind]
      simp only [Except.ok.injEq, exists_eq_left', List.mem_append, List.mem_map, or_and_right,
        exists_or, or_assoc]
      refine or_congr Iff.rfl (or_congr ?_ ?_)
      · constructor
        · rintro ⟨_, ⟨r, hr, rfl⟩, hname⟩
          exact ⟨r, hr, Option.some.inj hname⟩
        · rintro ⟨r, hr, hname⟩
          exact ⟨_, ⟨r, hr, rfl⟩, congrArg some hname⟩
      · constructor
        · rintro ⟨_, ⟨r, hr, rfl⟩, hname⟩
          exact ⟨r, hr, Option.some.inj hname⟩
        · rintro ⟨r, hr, hname⟩
          exact ⟨_, ⟨r, hr, rfl⟩, congrArg some hname⟩

/-- **What is listed of what can be loaded:** every name that the manager's own loader has
finished, and every name that the class path reads, if its extension has no slash. -/
theorem listed_of_finished_or_read (hchain : m.finder.host.IsChain c ls)
    (hextension : m.finder.extension = c.extension) (hp : IsPackage p) (ht : IsSegment t)
    (hlist : m.list .classPath p [.compiled] false s = .ok files)
    (h : Finished m.loader (member p t) s ∨
      ('/' ∉ c.extension.toList ∧ ∃ bytes, c.read? s.files (member p t) = .ok (some bytes))) :
    ∃ f ∈ files, m.binaryName .classPath f s = some (member p t) := by
  rw [exists_mem_list_iff hchain hextension hp ht hlist]
  rcases h with ⟨r, howned, hlisted, hname⟩ | ⟨hslash, bytes, hread⟩
  · exact .inr (.inl ⟨r, mem_ownedIn_iff.2 ⟨_, package_member hp ht, howned, hlisted⟩, hname⟩)
  · exact .inr (.inr ⟨hslash, by simp [hread]⟩)

/-- A loader over an empty class path that owns a finished artifact `lib.Core`. -/
def coreLoader : Loader × Store :=
  let (classPath, s) := ClassPath.new [] defaultExtension (.image 0) Store.empty
  let (loader, s) := Loader.new classPath.toHost (.image 0) s
  let (core, s) := s.newArtifact (.new "lib.Core" .compiled)
  (loader, (loader.register core (s.finalize core)).2)

/-- A manager with that loader. -/
def withCore : FileManager × Store :=
  FileManager.new Directories.none.toStandardFiles coreLoader.1
    ⟨coreLoader.1.parent, defaultExtension⟩ coreLoader.2

/-- A manager with another loader, below that one. -/
def belowCore : FileManager × Store :=
  let (lower, s) := Loader.new coreLoader.1.toHost (.image 0) coreLoader.2
  FileManager.new Directories.none.toStandardFiles lower ⟨lower.parent, defaultExtension⟩ s

/-- A manager over a directory that has the file of `lib.Core` below the package, where the
extension `/code` puts it. -/
def besideCode : FileManager × Store :=
  let s := { Store.empty with files := FileSystem.empty.write ⟨"lib/Core/code"⟩ [120] }
  let (classPath, s) := ClassPath.new [.directory ⟨"/"⟩] "/code" (.image 0) s
  let (loader, s) := Loader.new classPath.toHost (.image 0) s
  FileManager.new Directories.none.toStandardFiles loader ⟨classPath.toHost, "/code"⟩ s

theorem isPackage_lib : IsPackage "lib" := .segment ⟨by decide, by decide, by decide⟩

theorem isSegment_core : IsSegment "Core" := ⟨by decide, by decide, by decide⟩

/-- The manager's own artifact is listed. -/
theorem listed_withCore :
    ∃ files, withCore.1.list .classPath "lib" [.compiled] false withCore.2 = .ok files ∧
      ∃ f ∈ files, withCore.1.binaryName .classPath f withCore.2 = some (member "lib" "Core") := by
  have hlist : withCore.1.list .classPath "lib" [.compiled] false withCore.2 =
      .ok [.artifact ⟨0⟩] := eq_ok_of_toOption_eq_some (by decide +kernel)
  exact ⟨_, hlist, listed_of_finished_or_read .nil rfl isPackage_lib isSegment_core hlist
    (.inl ⟨⟨0⟩, rfl, rfl, rfl⟩)⟩

/-- A manager over a chain of loaders fails to list a name that can be loaded. -/
def Misses (m : FileManager) (s : Store) : Prop :=
  ∃ c ls p t files, m.finder.host.IsChain c ls ∧ m.loader.parent = m.finder.host ∧
    m.finder.extension = c.extension ∧ IsPackage p ∧ IsSegment t ∧
    Loadable c (m.loader :: ls) (member p t) s ∧
    m.list .classPath p [.compiled] false s = .ok files ∧
    ¬ ∃ f ∈ files, m.binaryName .classPath f s = some (member p t)

/-- What a loader above the manager's own holds in memory is not listed. -/
theorem list_belowCore :
    belowCore.1.list .classPath "lib" [.compiled] false belowCore.2 = .ok [] :=
  eq_ok_of_toOption_eq_some (by decide +kernel)

/-- A file below the package is not listed, though the extension leads there. -/
theorem list_besideCode :
    besideCode.1.list .classPath "lib" [.compiled] false besideCode.2 = .ok [] :=
  eq_ok_of_toOption_eq_some (by decide +kernel)

/-- That file is what the class path reads for the name. -/
theorem read?_besideCode :
    (ClassPath.mk [.directory ⟨"/"⟩] "/code" (.image 0) ⟨0⟩).read? besideCode.2.files
      (member "lib" "Core") = .ok (some [120]) :=
  eq_ok_of_toOption_eq_some (by decide +kernel)

/-- **Two ways in which a name that can be loaded is not listed:** it is owned by a loader
above the manager's own, or its file is below the package. -/
theorem misses_belowCore_and_besideCode :
    Misses belowCore.1 belowCore.2 ∧ Misses besideCode.1 besideCode.2 := by
  constructor
  · refine ⟨_, _, "lib", "Core", [], .cons .nil, rfl, rfl, isPackage_lib, isSegment_core, ?_,
      list_belowCore, by simp⟩
    exact .inr ⟨rfl, .inl ⟨⟨0⟩, rfl, rfl, rfl⟩⟩
  · refine ⟨_, _, "lib", "Core", [], .nil, rfl, rfl, isPackage_lib, isSegment_core, ?_,
      list_besideCode, by simp⟩
    exact .inr ⟨by decide +kernel, [120], read?_besideCode⟩

end FileManager
end LiveBuild
