/-
# Files in a directory

The path of a name in a directory is the path of the directory and then that of the name, however
the directory's path is written (`components_child`).  So whatever that path leads to, the
directory's own path leads to a directory, and the name is one of those in it
(`readDirectory_of_target?_child`).
-/

import LiveBuild.FileSystem.Basic
import LiveBuild.Proofs.Text.Affix

namespace LiveBuild

/-- A file name is its text. -/
theorem fileName_ext {n n' : FileName} (h : n.text = n'.text) : n = n' := by
  cases n
  cases n'
  cases h
  rfl

namespace Path

/-- Where the pieces of a path are those of two others, so are its components. -/
theorem components_eq_append {p q r : Path} (h : p.pieces = q.pieces ++ r.pieces) :
    p.components = q.components ++ r.components := by
  unfold components
  simp only [h, List.pmap_append]

/-- A slash between two texts cuts the pieces of the path in two. -/
theorem pieces_slash (r t : String) :
    (Path.mk (r ++ "/" ++ t)).pieces = (Path.mk r).pieces ++ (Path.mk t).pieces := by
  have hlist : (r ++ "/" ++ t).toList = r.toList ++ '/' :: t.toList := by
    simp [String.toList_append]
  rw [pieces, hlist, Text.pieces_append, List.map_append, pieces, pieces]

/-- A text without slashes is one piece. -/
theorem pieces_of_noSlash {t : String} (h : '/' ∉ t.toList) : (Path.mk t).pieces = [t] := by
  rw [pieces, Text.pieces_of_notMem h, List.map_singleton, String.ofList_toList]

/-- A slash between two texts cuts the path in two. -/
theorem components_slash (r t : String) :
    (Path.mk (r ++ "/" ++ t)).components = (Path.mk r).components ++ (Path.mk t).components :=
  components_eq_append (pieces_slash r t)

/-- The path of a file name is one step, to that name. -/
theorem components_fileName (n : FileName) : (Path.mk n.text).components = [.name n] := by
  unfold components
  simp only [pieces_of_noSlash n.noSlash, List.pmap_cons, List.pmap_nil,
    Component.ofText_fileName]

/-- **The path of a name in a directory is that of the directory and then that of the name,**
except for a step between them that stays. -/
theorem components_child (p : Path) (name : String) :
    ∃ cs, (p.child name).components = cs ++ (Path.mk name).components ∧
      (p.components = cs ∨ p.components = cs ++ [.here]) := by
  by_cases hempty : p.text = ""
  · refine ⟨[], ?_, .inr ?_⟩
    · have hchild : p.child name = ⟨name⟩ := by
        rw [child, if_pos (.inl hempty), hempty, String.empty_append]
      rw [hchild, List.nil_append]
    · obtain ⟨text⟩ := p
      subst hempty
      rfl
  · by_cases hslash : Text.endsWith "/" p.text = true
    · obtain ⟨r, hr⟩ := Text.endsWith_iff.1 hslash
      refine ⟨(Path.mk r).components, ?_, .inr ?_⟩
      · rw [child, if_pos (.inr hslash), hr, components_slash]
      · have htext : p = ⟨r ++ "/" ++ ""⟩ := by
          rw [String.append_empty, ← hr]
        rw [htext, components_slash]
        rfl
    · refine ⟨p.components, ?_, .inl rfl⟩
      have hnot : ¬ (p.text = "" ∨ Text.endsWith "/" p.text = true) := not_or.2 ⟨hempty, hslash⟩
      rw [child, if_neg hnot, components_slash]

/-- Different names in a directory have different paths. -/
theorem child_inj {p : Path} {name name' : String} : p.child name = p.child name' ↔ name = name' := by
  unfold child
  split
  · rw [Path.mk.injEq, String.append_right_inj]
  · rw [Path.mk.injEq, String.append_right_inj]

/-- Joining something, or joining it to something, gives a path that is not empty. -/
theorem join_nonempty {p : Path} {right : String} (h : p.text ≠ "" ∨ right ≠ "") :
    (p.join right).text ≠ "" := by
  unfold join child
  split
  · rename_i habsolute
    rintro rfl
    cases habsolute
  · split
    · rw [Ne, String.append_eq_empty_iff]
      exact fun hempty => h.elim (· hempty.1) (· hempty.2)
    · simp [String.append_eq_empty_iff]

/-- The path of a file in a directory is not empty, wherever the directory is. -/
theorem child_nonempty (p : Path) (n : FileName) : (p.child n.text).text ≠ "" := by
  unfold child
  split <;> simp [String.append_eq_empty_iff, n.nonempty]

/-- The text of a path in a directory begins with that of the directory. -/
theorem exists_text_child (p : Path) (name : String) : ∃ r, (p.child name).text = p.text ++ r := by
  unfold child
  split
  · exact ⟨name, rfl⟩
  · exact ⟨"/" ++ name, String.append_assoc⟩

end Path

namespace FileSystem

variable {fs : FileSystem}

/-- **A path leads somewhere** if it has no NUL, is neither empty nor too long, and the walk along
it comes to an end. -/
theorem resolve_eq_ok_iff {p : Path} {a : Address} :
    fs.resolve p = .ok a ↔
      Text.hasNul p.text = false ∧ p.text ≠ "" ∧ p.text.utf8ByteSize < maxPathBytes ∧
        ∃ links, fs.walk maxLinks [] p.components = .ok (a, links) := by
  unfold resolve
  cases hn : Text.hasNul p.text with
  | true => simp
  | false =>
    by_cases he : p.text = ""
    · simp [he]
    · by_cases hp : maxPathBytes ≤ p.text.utf8ByteSize
      · simp [he, hp, Nat.not_lt.2 hp]
      · cases hw : fs.walk maxLinks [] p.components with
        | error e => simp [he, hp, Except.map]
        | ok r => simp [he, hp, Nat.not_le.1 hp, Except.map, Prod.ext_iff]

/-- A walk takes the steps of its path one after the other, whatever it does behind a link. -/
theorem exists_walk_eq_steps (fs : FileSystem) (links : Nat) :
    ∃ follow, fs.walk links = fs.steps links follow := by
  cases links with
  | zero => exact ⟨_, rfl⟩
  | succ links => exact ⟨_, rfl⟩

/-- A walk of one step to a name starts in a directory that has something of that name. -/
theorem exists_of_walk_name {links : Nat} {a : Address} {n : FileName} {r : Address × Nat}
    (h : fs.walk links a [.name n] = .ok r) :
    fs.entry? a = some .directory ∧ (fs.entry? (a ++ [n])).isSome := by
  obtain ⟨follow, hwalk⟩ := fs.exists_walk_eq_steps links
  rw [hwalk, steps] at h
  split at h
  · cases h
  · cases h
  · cases h
  · rename_i hdir
    refine ⟨hdir, ?_⟩
    split at h
    · cases h
    · split at h
      · cases h
      · rename_i hentry
        rw [hentry, Option.isSome_some]
      · rename_i e _ hentry
        rw [hentry, Option.isSome_some]

/-- A step that stays can be taken in every directory. -/
theorem walk_here {a : Address} (h : fs.entry? a = some .directory) (links : Nat) :
    fs.walk links a [.here] = .ok (a, links) := by
  cases links <;> simp [walk, steps, h]

/-- A step that stays leads to where it began. -/
theorem eq_of_walk_here {links : Nat} {a : Address} {r : Address × Nat}
    (h : fs.walk links a [.here] = .ok r) : r.1 = a := by
  obtain ⟨follow, hwalk⟩ := fs.exists_walk_eq_steps links
  rw [hwalk, steps] at h
  split at h
  · cases h
  · cases h
  · cases h
  · cases h
    rfl

/-- **What a name in a directory leads to, is in the directory.**  The empty path is no directory,
though names may lead somewhere that are seen from it. -/
theorem readDirectory_of_target?_child {p : Path} (hp : p.text ≠ "") {n : FileName}
    {x : Address × Entry} (h : fs.target? (p.child n.text) = .ok x) :
    ∃ names, fs.isDirectory p ∧ fs.readDirectory p = .ok names ∧ n ∈ names := by
  obtain ⟨b, hb⟩ : ∃ b, fs.resolve (p.child n.text) = .ok b := by
    unfold target? at h
    split at h
    · cases h
    · exact ⟨_, by assumption⟩
  obtain ⟨hnul, -, hsize, links, hwalk⟩ := resolve_eq_ok_iff.1 hb
  -- the walk to the child is the walk to the directory and one name more
  obtain ⟨cs, hchild, hcs'⟩ := p.components_child n.text
  rw [hchild, Path.components_fileName, walk_append] at hwalk
  cases hcs : fs.walk maxLinks [] cs with
  | error e =>
    rw [hcs] at hwalk
    cases hwalk
  | ok r =>
    rw [hcs] at hwalk
    obtain ⟨hdir, hname⟩ := exists_of_walk_name hwalk
    have hwalk' : fs.walk maxLinks [] p.components = .ok r := by
      rcases hcs' with hcs' | hcs'
      · rw [hcs', hcs]
      · rw [hcs', walk_append, hcs]
        exact walk_here hdir r.2
    obtain ⟨tail, htext⟩ := p.exists_text_child n.text
    have hresolve : fs.resolve p = .ok r.1 := by
      refine resolve_eq_ok_iff.2 ⟨?_, hp, ?_, r.2, hwalk'⟩
      · rw [htext] at hnul
        simp only [Text.hasNul, String.toList_append, List.any_append, Bool.or_eq_false_iff] at hnul
        exact hnul.1
      · rw [htext, String.utf8ByteSize_append] at hsize
        omega
    have htarget : fs.target? p = .ok (r.1, .directory) := by
      simp only [target?, hresolve, hdir]
    refine ⟨fs.namesAt r.1, ?_, ?_, (fs.mem_namesAt_iff r.1 n).2 hname⟩
    · simp only [isDirectory, htarget]
    · simp only [readDirectory, htarget]

/-- What leads to a directory can be listed, each name once. -/
theorem exists_readDirectory_of_isDirectory {p : Path} (h : fs.isDirectory p) :
    ∃ names, fs.readDirectory p = .ok names ∧ names.Nodup := by
  unfold isDirectory at h
  split at h
  · rename_i a hp
    refine ⟨fs.namesAt a, ?_, fs.nodup_namesAt a⟩
    simp only [readDirectory, hp]
  · cases h

/-- A path leads to a directory exactly if its target is one. -/
theorem isDirectory_iff {p : Path} :
    fs.isDirectory p = true ↔ ∃ a, fs.target? p = .ok (a, .directory) := by
  unfold isDirectory
  cases fs.target? p with
  | error e => simp
  | ok x =>
    obtain ⟨a, entry⟩ := x
    cases entry <;> simp

/-- A path leads to a directory exactly if it resolves to the address of one. -/
theorem isDirectory_iff_entry {p : Path} :
    fs.isDirectory p = true ↔ ∃ a, fs.resolve p = .ok a ∧ fs.entry? a = some .directory := by
  rw [isDirectory_iff]
  unfold target?
  cases fs.resolve p with
  | error e => simp
  | ok a => cases hentry : fs.entry? a <;> simp [hentry]

/-- The empty path leads to no directory. -/
theorem nonempty_of_isDirectory {p : Path} (h : fs.isDirectory p = true) : p.text ≠ "" := by
  obtain ⟨a, ha, -⟩ := isDirectory_iff_entry.1 h
  exact (resolve_eq_ok_iff.1 ha).2.1

/-- Names can be listed exactly where a directory is, and they are those at its address. -/
theorem readDirectory_eq_ok_iff {p : Path} {names : List FileName} :
    fs.readDirectory p = .ok names ↔
      ∃ a, fs.target? p = .ok (a, .directory) ∧ names = fs.namesAt a := by
  unfold readDirectory
  cases fs.target? p with
  | error e => simp
  | ok x =>
    obtain ⟨a, entry⟩ := x
    cases entry <;> simp [eq_comm]

/-- A listing of a directory has every name once. -/
theorem nodup_of_readDirectory {p : Path} {names : List FileName}
    (h : fs.readDirectory p = .ok names) : names.Nodup := by
  obtain ⟨a, -, rfl⟩ := readDirectory_eq_ok_iff.1 h
  exact fs.nodup_namesAt a

/-- What can be read is a file that the path leads to. -/
theorem read_eq_ok_iff {p : Path} {content : Bytes} :
    fs.read p = .ok content ↔
      ∃ a mode, fs.resolve p = .ok a ∧ fs.entry? a = some (.file content mode) := by
  unfold read target?
  cases fs.resolve p with
  | error e => simp
  | ok a =>
    cases hentry : fs.entry? a with
    | none => simp [hentry]
    | some e => cases e <;> simp [hentry]

/-- What leads to a file can be read. -/
theorem exists_read_of_isFile {p : Path} (h : fs.isFile p) : ∃ content, fs.read p = .ok content := by
  unfold isFile at h
  split at h
  · rename_i b content mode hp
    refine ⟨content, ?_⟩
    simp only [read, hp]
  · cases h

/-- What is a file leads somewhere. -/
theorem exists_target?_of_isFile {p : Path} (h : fs.isFile p) : ∃ x, fs.target? p = .ok x := by
  unfold isFile at h
  split at h
  · exact ⟨_, by assumption⟩
  · cases h

/-- **A file of a directory is among its names.** -/
theorem mem_names_of_isFile {p : Path} {names : List FileName}
    (hnames : fs.readDirectory p = .ok names) {n : FileName}
    (h : fs.isFile (p.child n.text) = true) : n ∈ names := by
  obtain ⟨x, hx⟩ := exists_target?_of_isFile h
  obtain ⟨a, ha, -⟩ := readDirectory_eq_ok_iff.1 hnames
  have hp := nonempty_of_isDirectory (isDirectory_iff.2 ⟨a, ha⟩)
  obtain ⟨names', -, hnames', hn⟩ := readDirectory_of_target?_child hp hx
  rwa [Except.ok.inj (hnames.symm.trans hnames')]

end FileSystem
end LiveBuild
