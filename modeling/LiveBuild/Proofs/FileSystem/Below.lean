/-
# Paths below a directory

What counts in a path are its parts (`Path.parts`): that it begins at the root, the `.` that a
relative path may begin with, and every move.  Two paths are the same if their parts are
(`same_iff`).

| path | parts |
| --- | --- |
| `/a/./b` | the root, `a`, `b` |
| `./a//b` | `.`, `a`, `b` |
| `a/../b/` | `a`, `..`, `b` |

A path lies below a directory if it has the parts of the directory first and does not go up
behind them (`Path.LiesBelow`).  A path in a directory has parts behind those of the directory
(`parts_child`), but a path that is joined to a directory lies below it only if it is relative
and never goes up (`liesBelow_join_iff`): an absolute one takes the directory's place.
-/

import LiveBuild.Proofs.FileSystem.Children
import Mathlib.Data.List.Basic

namespace LiveBuild

/-- To begin with one character is to have it first. -/
theorem Text.startsWith_iff_head? {p : String} {c : Char} (hp : p.toList = [c]) (s : String) :
    startsWith p s = true ↔ s.toList.head? = some c := by
  rw [startsWith, hp]
  cases s.toList with
  | nil => simp [dropPrefix?]
  | cons a as => by_cases h : c = a <;> simp [dropPrefix?, h, eq_comm]

namespace Path

/-- The parts of a path: the root, a `.` at the beginning, and the moves. -/
def parts (p : Path) : List (Option Component) :=
  (if p.isAbsolute then [none] else []) ++ (if p.beginsHere then [some .here] else []) ++
    p.moves.map some

/-- A path has the parts of a directory, and does not go up behind them. -/
def LiesBelow (dir p : Path) : Prop := ∃ rest, p.parts = dir.parts ++ rest ∧ some .up ∉ rest

/-- A path lies below a directory exactly if it goes on from the parts of the directory and never
up. -/
theorem liesBelow_iff (dir p : Path) : dir.LiesBelow p ↔
    dir.parts <+: p.parts ∧ some .up ∉ p.parts.drop dir.parts.length := by
  constructor
  · rintro ⟨rest, hp, hup⟩
    rw [hp, List.drop_left]
    exact ⟨List.prefix_append _ _, hup⟩
  · rintro ⟨⟨rest, hp⟩, hup⟩
    rw [← hp, List.drop_left] at hup
    exact ⟨rest, hp.symm, hup⟩

instance (dir p : Path) : Decidable (dir.LiesBelow p) :=
  decidable_of_iff _ (liesBelow_iff dir p).symm

example : Path.LiesBelow ⟨"./a"⟩ ⟨"./a//b"⟩ ∧ ¬ Path.LiesBelow ⟨"a"⟩ ⟨"a/../b"⟩ := by decide

variable {p q dir : Path}

/-! ### Parts -/

/-- Only an absolute path has the root among its parts. -/
theorem none_mem_parts_iff (p : Path) : none ∈ p.parts ↔ p.isAbsolute = true := by
  unfold parts
  cases p.isAbsolute <;> cases p.beginsHere <;> simp

/-- A step that stays is a part only at the beginning of a path. -/
theorem here_mem_parts_iff (p : Path) : some .here ∈ p.parts ↔ p.beginsHere = true := by
  unfold parts
  cases p.isAbsolute <;> cases p.beginsHere <;> simp [moves]

/-- **Two paths are the same if they have the same parts.** -/
theorem same_iff : p.same q = true ↔ p.parts = q.parts := by
  simp only [same, Bool.and_eq_true, beq_iff_eq]
  constructor
  · rintro ⟨⟨habsolute, hhere⟩, hmoves⟩
    rw [parts, parts, habsolute, hhere, hmoves]
  · intro h
    have habsolute : p.isAbsolute = q.isAbsolute := by
      rw [Bool.eq_iff_iff, ← none_mem_parts_iff, ← none_mem_parts_iff, h]
    have hhere : p.beginsHere = q.beginsHere := by
      rw [Bool.eq_iff_iff, ← here_mem_parts_iff, ← here_mem_parts_iff, h]
    rw [parts, parts, habsolute, hhere, List.append_cancel_left_eq] at h
    exact ⟨⟨habsolute, hhere⟩, List.map_inj_right (fun _ _ => Option.some.inj) |>.1 h⟩

/-- Only two dots lead up. -/
theorem ofText_eq_up_iff (s : String) (hs : '/' ∉ s.toList) :
    Component.ofText s hs = .up ↔ s = ".." := by
  unfold Component.ofText
  split
  · simp [*]
  · split
    · simp [*]
    · split <;> simp [*]

/-- A path leads up where a piece of it is two dots. -/
theorem up_mem_moves_iff (p : Path) : .up ∈ p.moves ↔ ".." ∈ p.pieces := by
  simp [moves, components, List.mem_pmap, ofText_eq_up_iff]

/-- A path goes up exactly if `..` is one of its pieces. -/
theorem up_mem_parts_iff (p : Path) : some .up ∈ p.parts ↔ ".." ∈ p.pieces := by
  rw [← up_mem_moves_iff, parts]
  cases p.isAbsolute <;> cases p.beginsHere <;> simp

theorem parts_of_empty (h : p.text = "") : p.parts = [] := by
  obtain ⟨text⟩ := p
  subst h
  rfl

/-! ### Paths in a directory -/

/-- The moves of a path in a directory are those of the directory and then those of the name. -/
theorem moves_child (p : Path) (name : String) :
    (p.child name).moves = p.moves ++ (Path.mk name).moves := by
  obtain ⟨cs, hchild, hp⟩ := p.components_child name
  rcases hp with hp | hp <;> simp [moves, hchild, hp]

/-- A path is absolute if its first character is a slash. -/
theorem isAbsolute_iff (p : Path) : p.isAbsolute = true ↔ p.text.toList.head? = some '/' :=
  Text.startsWith_iff_head? rfl p.text

/-- If a directory's path is not empty, the path of a name in it begins at the root if that of
the directory does. -/
theorem isAbsolute_child (h : p.text ≠ "") (name : String) :
    (p.child name).isAbsolute = p.isAbsolute := by
  obtain ⟨tail, htail⟩ := p.exists_text_child name
  have hne : p.text.toList ≠ [] := fun he => h (String.toList_eq_nil_iff.1 he)
  rw [Bool.eq_iff_iff, isAbsolute_iff, isAbsolute_iff, htail, String.toList_append,
    List.head?_append_of_ne_nil _ hne]

/-- Even the empty path has a piece, the empty one. -/
theorem pieces_ne_nil (p : Path) : p.pieces ≠ [] := by
  rw [pieces, Ne, List.map_eq_nil_iff]
  exact Text.pieces_ne_nil _ _

/-- If a directory's path is not empty, the path of a name in it begins with a `.` if that of
the directory does. -/
theorem beginsHere_child (h : p.text ≠ "") (name : String) :
    (p.child name).beginsHere = p.beginsHere := by
  have hhead : (p.child name).pieces.head? = p.pieces.head? := by
    by_cases hslash : Text.endsWith "/" p.text = true
    · obtain ⟨r, hr⟩ := Text.endsWith_iff.1 hslash
      have hp : p = ⟨r ++ "/" ++ ""⟩ := by rw [String.append_empty, ← hr]
      rw [child, if_pos (.inr hslash), hr, pieces_slash, hp, pieces_slash,
        List.head?_append_of_ne_nil _ (pieces_ne_nil _),
        List.head?_append_of_ne_nil _ (pieces_ne_nil _)]
    · have hnot : ¬ (p.text = "" ∨ Text.endsWith "/" p.text = true) := not_or.2 ⟨h, hslash⟩
      rw [child, if_neg hnot, pieces_slash, List.head?_append_of_ne_nil _ (pieces_ne_nil _)]
  rw [beginsHere, beginsHere, hhead]

/-- The parts of a path in a directory are those of the directory and then the moves of the name. -/
theorem parts_child_of_nonempty (h : p.text ≠ "") (name : String) :
    (p.child name).parts = p.parts ++ (Path.mk name).moves.map some := by
  rw [parts, parts, isAbsolute_child h, beginsHere_child h, moves_child]
  simp

/-- **The path of a name in a directory has the directory's parts first,** and goes up behind
them exactly if the name does. -/
theorem parts_child (p : Path) (name : String) :
    ∃ rest, (p.child name).parts = p.parts ++ rest ∧
      (some .up ∈ rest ↔ ".." ∈ (Path.mk name).pieces) := by
  by_cases h : p.text = ""
  · refine ⟨(Path.mk name).parts, ?_, up_mem_parts_iff _⟩
    rw [child, if_pos (.inl h), h, String.empty_append, parts_of_empty h, List.nil_append]
  · refine ⟨_, parts_child_of_nonempty h name, ?_⟩
    rw [← up_mem_moves_iff]
    simp

/-- A name that does not go up leads on below a directory. -/
theorem LiesBelow.child (h : dir.LiesBelow p) {name : String}
    (hname : ".." ∉ (Path.mk name).pieces) : dir.LiesBelow (p.child name) := by
  obtain ⟨rest, hp, hup⟩ := h
  obtain ⟨rest', hchild, hup'⟩ := p.parts_child name
  refine ⟨rest ++ rest', by rw [hchild, hp, List.append_assoc], ?_⟩
  rw [List.mem_append, hup', not_or]
  exact ⟨hup, hname⟩

/-- Every path lies below itself. -/
theorem liesBelow_self (p : Path) : p.LiesBelow p := ⟨[], by simp, by simp⟩

/-- What lies below a directory has its files below the directory too. -/
theorem LiesBelow.fileName (h : dir.LiesBelow p) (n : FileName) :
    dir.LiesBelow (p.child n.text) := by
  refine h.child ?_
  rw [pieces_of_noSlash n.noSlash, List.mem_singleton]
  exact n.notUp.symm

/-! ### Joined paths -/

/-- An absolute path takes the place of the directory. -/
theorem join_of_absolute {right : String} (h : Text.startsWith "/" right = true) (p : Path) :
    p.join right = ⟨right⟩ := by
  rw [join, if_pos h]

/-- **A relative path without two dots stays below what it is joined to.** -/
theorem liesBelow_join {right : String} (h : ¬ Text.startsWith "/" right = true)
    (hup : ".." ∉ (Path.mk right).pieces) (p : Path) : p.LiesBelow (p.join right) := by
  rw [join, if_neg h]
  exact p.liesBelow_self.child hup

/-- **What is joined to a directory lies below it,** whatever the directory, exactly if it is
relative and never goes up. -/
theorem liesBelow_join_iff (right : String) :
    (∀ p : Path, p.LiesBelow (p.join right)) ↔
      ¬ Text.startsWith "/" right = true ∧ ".." ∉ (Path.mk right).pieces := by
  refine ⟨fun h => ?_, fun ⟨hrelative, hup⟩ => liesBelow_join hrelative hup⟩
  obtain ⟨rest, hparts, hrest⟩ := h ⟨"x"⟩
  have hx : (Path.mk "x").parts =
      [some (.name ⟨"x", by decide, by decide, by decide, by decide⟩)] := rfl
  have hrelative : ¬ Text.startsWith "/" right = true := by
    intro habsolute
    rw [join_of_absolute habsolute, hx, parts, isAbsolute, if_pos habsolute] at hparts
    simp at hparts
  refine ⟨hrelative, ?_⟩
  rw [join, if_neg hrelative, parts_child_of_nonempty (by decide),
    List.append_cancel_left_eq] at hparts
  rw [← up_mem_moves_iff]
  intro hup
  exact hrest (hparts ▸ List.mem_map_of_mem hup)

end Path
end LiveBuild
