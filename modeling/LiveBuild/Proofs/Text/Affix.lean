/-
# Beginnings and ends, as equations

To begin or to end with a text is to be that text with something behind it or before it.
The tests and the cuts on texts all say so.
-/

import LiveBuild.Text.Affix

namespace LiveBuild
namespace Text

/-- What is left behind a start is what stands behind it. -/
theorem afterStart?_eq_some_iff {p s r : String} : afterStart? p s = some r ↔ s = p ++ r := by
  simp only [afterStart?, Option.map_eq_some_iff, dropPrefix?_eq_some_iff]
  constructor
  · rintro ⟨q, hq, rfl⟩
    rw [← String.toList_inj, hq, String.toList_append, String.toList_ofList]
  · rintro rfl
    exact ⟨r.toList, String.toList_append, String.ofList_toList⟩

/-- What is left before an end is what stands before it. -/
theorem beforeEnd?_eq_some_iff {p s r : String} : beforeEnd? p s = some r ↔ s = r ++ p := by
  simp only [beforeEnd?, Option.map_eq_some_iff, dropSuffix?_eq_some_iff]
  constructor
  · rintro ⟨q, hq, rfl⟩
    rw [← String.toList_inj, hq, String.toList_append, String.toList_ofList]
  · rintro rfl
    exact ⟨r.toList, String.toList_append, String.ofList_toList⟩

/-- A text starts with another if it is that one with something behind it. -/
theorem startsWith_iff {p s : String} : startsWith p s = true ↔ ∃ r, s = p ++ r := by
  have hcut : startsWith p s = (afterStart? p s).isSome := by
    rw [startsWith, afterStart?, Option.isSome_map]
  rw [hcut, Option.isSome_iff_exists]
  exact exists_congr fun r => afterStart?_eq_some_iff

/-- A text ends with another if it is that one with something before it. -/
theorem endsWith_iff {p s : String} : endsWith p s = true ↔ ∃ r, s = r ++ p := by
  have hcut : endsWith p s = (beforeEnd? p s).isSome := by
    rw [endsWith, beforeEnd?, Option.isSome_map]
  rw [hcut, Option.isSome_iff_exists]
  exact exists_congr fun r => beforeEnd?_eq_some_iff

/-- A text that has no run of a character at its end loses nothing. -/
theorem withoutTrailing_of_getLast?_ne {c : Char} {s : String} (h : s.toList.getLast? ≠ some c) :
    withoutTrailing c s = s := by
  have hdrop : s.toList.reverse.dropWhile (· == c) = s.toList.reverse := by
    cases hr : s.toList.reverse with
    | nil => rfl
    | cons a rest =>
      have ha : a ≠ c := by
        rintro rfl
        exact h (by rw [← List.head?_reverse, hr, List.head?_cons])
      simp [ha]
  rw [withoutTrailing, hdrop, List.reverse_reverse, String.ofList_toList]

/-- Characters are exchanged one by one. -/
theorem exchange_append (a b : Char) (s t : String) :
    exchange a b (s ++ t) = exchange a b s ++ exchange a b t := by
  simp [exchange, String.toList_append]

/-- A text without the character stays as it is. -/
theorem exchange_of_notMem {a b : Char} {s : String} (h : a ∉ s.toList) : exchange a b s = s := by
  have hmap : s.toList.map (fun c => if c = a then b else c) = s.toList.map id := by
    refine List.map_congr_left fun c hc => if_neg ?_
    rintro rfl
    exact h hc
  rw [exchange, hmap, List.map_id, String.ofList_toList]

/-- To exchange a character and exchange it back changes nothing, if the other one was not
there. -/
theorem exchange_exchange {a b : Char} {s : String} (h : b ∉ s.toList) :
    exchange b a (exchange a b s) = s := by
  have hmap : (s.toList.map fun c => if c = a then b else c).map (fun c => if c = b then a else c) =
      s.toList.map id := by
    rw [List.map_map]
    refine List.map_congr_left fun c hc => ?_
    have hcb : c ≠ b := by
      rintro rfl
      exact h hc
    by_cases hca : c = a
    · simp [hca]
    · simp [hca, hcb]
  rw [exchange, exchange, String.toList_ofList, hmap, List.map_id, String.ofList_toList]

end Text
end LiveBuild
