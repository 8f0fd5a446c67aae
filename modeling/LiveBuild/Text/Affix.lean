/-
# Beginnings and ends of texts

A file name is told by its end (`.class`), a binary by its first bytes, a package
by the dots in front of a name.  All of these ask one question: is the sequence
`s` the sequence `p` followed by something, and by what?

`dropPrefix?` answers it for lists, `dropSuffix?` for the other end, and the
functions on `String` are read through `String.toList`.

* `dropPrefix?_eq_some_iff`: `dropPrefix? p s = some r` says `s = p ++ r`.
* `dropSuffix?_eq_some_iff`: `dropSuffix? p s = some r` says `s = r ++ p`.
-/

namespace LiveBuild
namespace Text

/-- What follows `p` in `s`, if `s` begins with `p`. -/
def dropPrefix? {α : Type} [DecidableEq α] : List α → List α → Option (List α)
  | [], s => some s
  | _ :: _, [] => none
  | a :: p, b :: s => if a = b then dropPrefix? p s else none

/-- What comes before `p` in `s`, if `s` ends with `p`. -/
def dropSuffix? {α : Type} [DecidableEq α] (p s : List α) : Option (List α) :=
  (dropPrefix? p.reverse s.reverse).map List.reverse

/-- Dropping a prefix succeeds exactly where it stands, and leaves what stands behind it. -/
theorem dropPrefix?_eq_some_iff {α : Type} [DecidableEq α] {p s r : List α} :
    dropPrefix? p s = some r ↔ s = p ++ r := by
  induction p generalizing s with
  | nil => simp [dropPrefix?]
  | cons a p ih =>
    cases s with
    | nil => simp [dropPrefix?]
    | cons b s =>
      by_cases h : a = b
      · subst h; simp [dropPrefix?, ih]
      · simp [dropPrefix?, h, Ne.symm h]

/-- Dropping a suffix succeeds exactly where it stands, and leaves what stands before it. -/
theorem dropSuffix?_eq_some_iff {α : Type} [DecidableEq α] {p s r : List α} :
    dropSuffix? p s = some r ↔ s = r ++ p := by
  simp only [dropSuffix?, Option.map_eq_some_iff, dropPrefix?_eq_some_iff]
  constructor
  · rintro ⟨q, hq, rfl⟩
    rw [← List.reverse_reverse s, hq]; simp
  · rintro rfl
    exact ⟨r.reverse, by simp, by simp⟩

/-- Whether `s` begins with `p`. -/
def startsWith (p s : String) : Bool := (dropPrefix? p.toList s.toList).isSome

/-- Whether `s` ends with `p`. -/
def endsWith (p s : String) : Bool := (dropSuffix? p.toList s.toList).isSome

/-- What follows `p` in the text `s`, if `s` begins with `p`. -/
def afterStart? (p s : String) : Option String :=
  (dropPrefix? p.toList s.toList).map String.ofList

/-- What comes before `p` in the text `s`, if `s` ends with `p`. -/
def beforeEnd? (p s : String) : Option String :=
  (dropSuffix? p.toList s.toList).map String.ofList

/-- Whether there is a NUL in a text. -/
def hasNul (s : String) : Bool := s.toList.any (· == '\x00')

/-- The text with every `a` turned into `b`. -/
def exchange (a b : Char) (s : String) : String :=
  String.ofList (s.toList.map fun c => if c = a then b else c)

/-- The text without the run of `c` at its end. -/
def withoutTrailing (c : Char) (s : String) : String :=
  String.ofList (s.toList.reverse.dropWhile (· == c)).reverse

/-- The pieces of `s` between the separators `a`: one more than there are separators. -/
def pieces (a : Char) : List Char → List (List Char)
  | [] => [[]]
  | c :: s =>
    if c = a then [] :: pieces a s
    else match pieces a s with
      | [] => [[c]]
      | p :: ps => (c :: p) :: ps

/-- There is always a piece, be it the empty one. -/
theorem pieces_ne_nil (a : Char) (s : List Char) : pieces a s ≠ [] := by
  cases s with
  | nil => simp [pieces]
  | cons c s =>
    unfold pieces
    split
    · simp
    · split <;> simp

/-- **Cutting at a separator in the middle cuts both sides.** -/
theorem pieces_append (a : Char) (s t : List Char) :
    pieces a (s ++ a :: t) = pieces a s ++ pieces a t := by
  induction s with
  | nil => simp [pieces]
  | cons c s ih =>
    by_cases h : c = a
    · simp [pieces, h, ih]
    · have hs := pieces_ne_nil a s
      cases hp : pieces a s with
      | nil => exact absurd hp hs
      | cons p ps => simp [pieces, h, ih, hp]

/-- What the separator does not occur in is one piece. -/
theorem pieces_of_notMem {a : Char} {s : List Char} (h : a ∉ s) : pieces a s = [s] := by
  induction s with
  | nil => rfl
  | cons c s ih =>
    rw [List.mem_cons, not_or] at h
    simp [pieces, Ne.symm h.1, ih h.2]

/-- There is no separator in a piece. -/
theorem notMem_of_mem_pieces {a : Char} {s p : List Char} (h : p ∈ pieces a s) : a ∉ p := by
  induction s generalizing p with
  | nil => simp_all [pieces]
  | cons c s ih =>
    by_cases hc : c = a
    · simp only [pieces, hc, if_true, List.mem_cons] at h
      rcases h with rfl | h
      · simp
      · exact ih h
    · cases hp : pieces a s with
      | nil => exact absurd hp (pieces_ne_nil a s)
      | cons q qs =>
        simp only [pieces, hc, if_false, hp, List.mem_cons] at h
        rcases h with rfl | h
        · have hq : a ∉ q := ih (by simp [hp])
          simp [hq, Ne.symm hc]
        · exact ih (by simp [hp, h])

end Text
end LiveBuild
