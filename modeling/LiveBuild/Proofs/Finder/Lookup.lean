/-
# The first artifact listed is the one that is read

A compiler sees what a class path lists, and a program gets what the class path reads.  If a
name stands in several entries, the listing has an artifact for each of them, in the order of
the entries, and reading stops at the first one.  Both must mean the same artifact: the bytes
that are read, or the error, are those of the first artifact that is listed under the name, and
nothing is read exactly if none is listed (`read?_eq_first_listed`).

Every block of the listing holds a name at most once and where its entry would read it
(`Finder.mem_block_member_iff`), so the law goes over from the entries to the class path by
induction (`Finder.firstHit_eq_of_gather`).
-/

import LiveBuild.FileSystem.Edit
import LiveBuild.Proofs.Archive.Packed
import LiveBuild.Proofs.Finder.Listing

namespace LiveBuild

open QualifiedName

variable {fs : FileSystem} {p t : String}

namespace Finder

variable {f : Finder} {found : List ResolvedArtifact}

/-- What reading comes to when it goes by a listing: the bytes of the first artifact of a name. -/
def readListed (fs : FileSystem) (found : List ResolvedArtifact) (name : String) :
    Except Error (Option Bytes) :=
  match found.find? fun r => r.binaryName = name with
  | none => .ok none
  | some r => (r.read fs).map some

/-- A name that a block has not is looked for behind it. -/
theorem readListed_append_of_notMem {rs : List ResolvedArtifact} {name : String}
    (h : ∀ r ∈ rs, r.binaryName ≠ name) (found : List ResolvedArtifact) :
    readListed fs (rs ++ found) name = readListed fs found name := by
  have hnone : rs.find? (fun r => r.binaryName = name) = none := by
    rw [List.find?_eq_none]
    intro r hr
    simpa using h r hr
  rw [readListed, List.find?_append, hnone, Option.none_or]
  rfl

/-- A name that a block has is not looked for behind it. -/
theorem readListed_append_of_mem {rs : List ResolvedArtifact} {name : String}
    (h : ∃ r ∈ rs, r.binaryName = name) (found : List ResolvedArtifact) :
    readListed fs (rs ++ found) name = readListed fs rs name := by
  have hsome : (rs.find? fun r => r.binaryName = name).isSome := by
    rw [List.find?_isSome]
    simpa using h
  rw [readListed, List.find?_append, Option.or_of_isSome hsome]
  rfl

/-- Nothing is read exactly if no artifact of the name is listed. -/
theorem readListed_eq_none_iff {name : String} :
    readListed fs found name = .ok none ↔ ∀ r ∈ found, r.binaryName ≠ name := by
  unfold readListed
  cases h : found.find? fun r => r.binaryName = name with
  | none =>
    rw [List.find?_eq_none] at h
    simpa using h
  | some r =>
    have hr : r ∈ found := List.mem_of_find?_eq_some h
    have hname : r.binaryName = name := by simpa using List.find?_some h
    refine iff_of_false ?_ fun hnot => hnot r hr hname
    show (r.read fs).map some ≠ .ok none
    cases r.read fs <;> simp [Except.map]

/-- **One entry reads what the first artifact of its block reads.** -/
theorem readListed_block (hp : IsPackage p) (ht : IsSegment t) (hslash : '/' ∉ f.extension.toList)
    {entry : ClassPathEntry} {rs : List ResolvedArtifact} (h : f.block fs p entry = .ok rs) :
    readListed fs rs (member p t) = entry.read? fs (toPath (member p t) ++ f.extension) := by
  by_cases hread : entry.read? fs (toPath (member p t) ++ f.extension) = .ok none
  · rw [hread, readListed_eq_none_iff]
    intro r hr hname
    exact ((mem_block_member_iff hp ht h).1 ⟨hr, hname⟩).2.1 hread
  · obtain ⟨hmem, hname⟩ := (mem_block_member_iff hp ht h).2 ⟨hslash, hread, rfl⟩
    unfold readListed
    cases hfirst : rs.find? fun r => r.binaryName = member p t with
    | none =>
      rw [List.find?_eq_none] at hfirst
      exact absurd (decide_eq_true hname) (hfirst _ hmem)
    | some r =>
      have hr : r ∈ rs := List.mem_of_find?_eq_some hfirst
      have hrname : r.binaryName = member p t := by simpa using List.find?_some hfirst
      obtain ⟨-, -, rfl⟩ := (mem_block_member_iff hp ht h).1 ⟨hr, hrname⟩
      exact ClassPathEntry.read_place hread _

/-- **A search through entries reads what the first artifact of all their blocks reads.** -/
theorem firstHit_eq_of_gather (hp : IsPackage p) (ht : IsSegment t)
    (hslash : '/' ∉ f.extension.toList) {entries : List ClassPathEntry}
    (h : gather (f.block fs p) entries = .ok found) :
    ClassPath.firstHit fs (toPath (member p t) ++ f.extension) entries =
      readListed fs found (member p t) := by
  induction entries generalizing found with
  | nil =>
    obtain rfl := Except.ok.inj h
    rfl
  | cons entry entries ih =>
    obtain ⟨rs, rest, hblock, hrest, rfl⟩ := gather_cons_eq_ok_iff.1 h
    have hown := readListed_block hp ht hslash hblock
    rw [ClassPath.firstHit, ih hrest]
    by_cases hlisted : ∃ r ∈ rs, r.binaryName = member p t
    · have hhit : readListed fs rs (member p t) ≠ .ok none := by
        rw [ne_eq, readListed_eq_none_iff]
        obtain ⟨r, hr, hname⟩ := hlisted
        exact fun hnot => hnot r hr hname
      rw [readListed_append_of_mem hlisted, ← hown]
      split
      · rename_i hmiss
        exact absurd hmiss hhit
      · rfl
    · have hnot : ∀ r ∈ rs, r.binaryName ≠ member p t := fun r hr hname => hlisted ⟨r, hr, hname⟩
      rw [readListed_append_of_notMem hnot, ← hown, readListed_eq_none_iff.2 hnot]

end Finder

namespace ClassPath

/-- The finder that lists a class path, with the extension of the class path. -/
def finder (c : ClassPath) : Finder := ⟨c.toHost, c.extension⟩

/-- **Listing and reading agree:** if a package is listed, a name in it is missed exactly if no
artifact of that name is listed, and otherwise it is read with the answer of the first one. -/
theorem read?_eq_first_listed (c : ClassPath) (hslash : '/' ∉ c.extension.toList)
    (hp : IsPackage p) (ht : IsSegment t) {found : List ResolvedArtifact}
    (hfind : c.finder.find fs p = .ok found) :
    (c.read? fs (member p t) = .ok none ↔ ∀ r ∈ found, r.binaryName ≠ member p t) ∧
      ∀ r, found.find? (fun r => r.binaryName = member p t) = some r →
        c.read? fs (member p t) = (r.read fs).map some := by
  have hgather : gather (c.finder.block fs p) c.entries = .ok found :=
    (Finder.find_eq_ok_iff rfl).1 hfind
  have hread : c.read? fs (member p t) = Finder.readListed fs found (member p t) :=
    Finder.firstHit_eq_of_gather hp ht hslash hgather
  rw [hread]
  refine ⟨Finder.readListed_eq_none_iff, fun r hr => ?_⟩
  rw [Finder.readListed, hr]

/-- A file system with two codes of `lib.App`: one in an archive, the other one in a directory. -/
def twofold : FileSystem :=
  (FileSystem.empty.write ⟨"old.zip"⟩ (Archive.pack [("lib/App.code", [1])])).write
    ⟨"new/lib/App.code"⟩ [2]

/-- The class path that has the archive before the directory. -/
def archiveFirst : ClassPath := ⟨[.archive ⟨"old.zip"⟩, .directory ⟨"new"⟩], ".code", .image 0, ⟨0⟩⟩

/-- The artifact of the archive. -/
def archived : ResolvedArtifact := ⟨"lib.App", .member ⟨"old.zip"⟩ "lib/App.code"⟩

/-- The artifact of the directory. -/
def unpacked : ResolvedArtifact := ⟨"lib.App", .file ⟨"new/lib/App.code"⟩⟩

/-- Both artifacts are listed, in the order of the class path. -/
theorem find_archiveFirst : archiveFirst.finder.find twofold "lib" = .ok [archived, unpacked] :=
  eq_ok_of_toOption_eq_some (by decide +kernel)

/-- Of the two that are listed, the one in the archive is read; what is not listed is not read. -/
theorem read?_archiveFirst :
    archiveFirst.read? twofold (member "lib" "App") = .ok (some [1]) ∧
      archiveFirst.read? twofold (member "lib" "Core") = .ok none := by
  have hlib : IsPackage "lib" := .segment ⟨by decide, by decide, by decide⟩
  have happ : IsSegment "App" := ⟨by decide, by decide, by decide⟩
  have hcore : IsSegment "Core" := ⟨by decide, by decide, by decide⟩
  have hread : archived.read twofold = .ok [1] := eq_ok_of_toOption_eq_some (by decide +kernel)
  have hnot : ∀ r ∈ [archived, unpacked], r.binaryName ≠ member "lib" "Core" := by
    decide +kernel
  have hfirst : [archived, unpacked].find? (fun r => r.binaryName = member "lib" "App") =
      some archived := by decide +kernel
  have hslash : '/' ∉ archiveFirst.extension.toList := by decide
  refine ⟨?_, (read?_eq_first_listed archiveFirst hslash hlib hcore find_archiveFirst).1.2 hnot⟩
  rw [(read?_eq_first_listed archiveFirst hslash hlib happ find_archiveFirst).2 _ hfirst, hread]
  rfl

end ClassPath
end LiveBuild
