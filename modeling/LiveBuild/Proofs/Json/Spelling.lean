/-
# Only texts of the grammar are read

What a reader answers is cut off at the beginning of the text that it is given, and it is something
that the grammar allows there:

| reader | the text is | where |
| --- | --- | --- |
| `number?` | `t ++ rest` | `IsNumber t` |
| `units?` | `t`, a quote, `rest` | `SpellsUnits us t` |
| `value?` | `t ++ rest` | `Spells v t` |
| `items?` | `t`, a bracket, `rest` | `SpellsItems vs t` |
| `members?` | `t`, a brace, `rest` | `SpellsMembers ms t` |

Together with the other direction, a text is read as a value exactly if it spells this value with
blanks around it (`parse?_eq_some_iff`), so no text spells two values (`Spells.eq_of_spells`).
-/

import LiveBuild.Proofs.Json.Reading
import Mathlib.Data.List.TakeWhile

namespace LiveBuild
namespace Json

variable {s t w rest ds : List Char} {fuel : Nat}

/-! ### Numbers -/

/-- What is read as digits are the digits that the text begins with. -/
theorem digits?_eq_some (h : digits? s = some (ds, rest)) : s = ds ++ rest ∧ IsDigits ds := by
  rw [digits?] at h
  split at h
  · cases h
  · rename_i hne
    obtain ⟨rfl, rfl⟩ := Prod.mk.inj (Option.some.inj h)
    refine ⟨List.takeWhile_append_dropWhile.symm, hne, fun d hd => ?_⟩
    exact List.mem_takeWhile_imp hd

/-- What is read as an integer is one that the text begins with. -/
theorem integer?_eq_some {i : List Char} (h : integer? s = some (i, rest)) :
    s = i ++ rest ∧ IsInteger i := by
  cases s with
  | nil => cases h
  | cons c s =>
    rw [integer?] at h
    split at h
    · rename_i hc
      obtain ⟨rfl, rfl⟩ := Prod.mk.inj (Option.some.inj h)
      exact ⟨by rw [hc]; rfl, .zero⟩
    · rename_i hne
      split at h
      · rename_i hc
        obtain ⟨rfl, rfl⟩ := Prod.mk.inj (Option.some.inj h)
        refine ⟨by simp [List.takeWhile_append_dropWhile], .digits hc hne fun d hd => ?_⟩
        exact List.mem_takeWhile_imp hd
      · cases h

/-- What is read as a fraction, or as none, is what the text begins with. -/
theorem fraction?_eq_some {f : List Char} (h : fraction? s = some (f, rest)) :
    s = f ++ rest ∧ IsFraction f := by
  unfold fraction? at h
  split at h
  · obtain ⟨⟨ds, rest'⟩, hds, he⟩ := Option.map_eq_some_iff.1 h
    obtain ⟨rfl, rfl⟩ := Prod.mk.inj he
    obtain ⟨rfl, hdigits⟩ := digits?_eq_some hds
    exact ⟨rfl, .point hdigits⟩
  · obtain ⟨rfl, rfl⟩ := Prod.mk.inj (Option.some.inj h)
    exact ⟨rfl, .none⟩

/-- A text is its sign, if it begins with one, and what stands behind it. -/
theorem sign_cases (s : List Char) :
    s = (sign s).1 ++ (sign s).2 ∧ ((sign s).1 = [] ∨ (sign s).1 = ['+'] ∨ (sign s).1 = ['-']) := by
  unfold sign
  split <;> simp

/-- What is read as an exponent, or as none, is what the text begins with. -/
theorem exponent?_eq_some {e : List Char} (h : exponent? s = some (e, rest)) :
    s = e ++ rest ∧ IsExponent e := by
  cases s with
  | nil =>
    obtain ⟨rfl, rfl⟩ := Prod.mk.inj (Option.some.inj h)
    exact ⟨rfl, .none⟩
  | cons c s =>
    obtain ⟨hs, hsgn⟩ := sign_cases s
    rw [exponent?] at h
    generalize sign s = signed at h hs hsgn
    obtain ⟨sgn, s'⟩ := signed
    split at h
    · rename_i hc
      obtain ⟨⟨ds, rest'⟩, hds, he⟩ := Option.map_eq_some_iff.1 h
      obtain ⟨rfl, rfl⟩ := Prod.mk.inj he
      obtain ⟨rfl, hdigits⟩ := digits?_eq_some hds
      exact ⟨by simp [hs], .letter hc hsgn hdigits⟩
    · obtain ⟨rfl, rfl⟩ := Prod.mk.inj (Option.some.inj h)
      exact ⟨rfl, .none⟩

/-- What is read as a number without sign is made of the three parts of the grammar. -/
theorem unsigned?_eq_some (h : unsigned? s = some (t, rest)) :
    ∃ i f e, t = i ++ (f ++ e) ∧ s = t ++ rest ∧ IsInteger i ∧ IsFraction f ∧ IsExponent e := by
  simp only [unsigned?, Option.bind_eq_bind, Option.bind_eq_some_iff, Prod.exists, Option.pure_def,
    Option.some.injEq, Prod.mk.injEq] at h
  obtain ⟨i, s₁, hi, f, s₂, hf, e, s₃, he, rfl, rfl⟩ := h
  obtain ⟨rfl, hinteger⟩ := integer?_eq_some hi
  obtain ⟨rfl, hfraction⟩ := fraction?_eq_some hf
  obtain ⟨rfl, hexponent⟩ := exponent?_eq_some he
  exact ⟨i, f, e, by simp, by simp, hinteger, hfraction, hexponent⟩

/-- **What is read as a number is one.** -/
theorem number?_eq_some (h : number? s = some (t, rest)) : s = t ++ rest ∧ IsNumber t := by
  unfold number? at h
  split at h
  · obtain ⟨⟨n, rest'⟩, hn, he⟩ := Option.map_eq_some_iff.1 h
    obtain ⟨rfl, rfl⟩ := Prod.mk.inj he
    obtain ⟨i, f, e, rfl, rfl, hi, hf, he⟩ := unsigned?_eq_some hn
    exact ⟨rfl, .mk (.inr rfl) hi hf he⟩
  · obtain ⟨i, f, e, rfl, rfl, hi, hf, he⟩ := unsigned?_eq_some h
    exact ⟨rfl, .mk (.inl rfl) hi hf he⟩

/-! ### Strings -/

/-- What has a value as a hexadecimal digit is one. -/
theorem mem_hexDigits {c : Char} {n : Nat} (h : hexDigit? c = some n) : (c, n) ∈ hexDigits := by
  have hall : ∀ k < 0x80, ∀ m ∈ hexDigit? (Char.ofNat k), (Char.ofNat k, m) ∈ hexDigits := by
    decide
  have hc : c.toNat < 0x80 := by
    by_contra hlarge
    have hlast : ∀ d : Char, d.toNat < 0x80 → ¬ c ≤ d := fun d hd hle =>
      hlarge (Nat.lt_of_le_of_lt hle hd)
    have hnone : hexDigit? c = none := by
      simp [hexDigit?, hlast '9' (by decide), hlast 'f' (by decide), hlast 'F' (by decide)]
    simp [hnone] at h
  have hmem := hall c.toNat hc n
  rw [Char.ofNat_toNat] at hmem
  exact hmem h

/-- What is read as a code are four hexadecimal digits. -/
theorem hex4?_eq_some {n : Nat} (h : hex4? s = some (n, rest)) :
    ∃ ds, s = ds ++ rest ∧ Hex4 ds n := by
  unfold hex4? at h
  split at h
  · simp only [Option.bind_eq_bind, Option.bind_eq_some_iff, Option.pure_def, Option.some.injEq,
      Prod.mk.injEq] at h
    obtain ⟨w, hw, x, hx, y, hy, z, hz, hn, rfl⟩ := h
    have hhex := Hex4.mk (mem_hexDigits hw) (mem_hexDigits hx) (mem_hexDigits hy) (mem_hexDigits hz)
    have hvalue : ((w * 16 + x) * 16 + y) * 16 + z = w * 0x1000 + x * 0x100 + y * 0x10 + z := by
      omega
    rw [← hvalue, hn] at hhex
    exact ⟨_, rfl, hhex⟩
  · cases h

/-- What is read as the second half of a pair is the escape of one. -/
theorem low?_eq_some {n : Nat} (h : low? s = some (n, rest)) :
    ∃ ds, s = '\\' :: 'u' :: (ds ++ rest) ∧ Hex4 ds n ∧ SecondHalf n := by
  unfold low? at h
  split at h
  · split at h
    · rename_i hcode
      split at h
      · rename_i hlow
        obtain ⟨rfl, rfl⟩ := Prod.mk.inj (Option.some.inj h)
        obtain ⟨ds, rfl, hds⟩ := hex4?_eq_some hcode
        exact ⟨ds, rfl, hds, (isLow_iff _).1 hlow⟩
      · cases h
    · cases h
  · cases h

/-- Only the short escapes of the grammar are read as such. -/
theorem mem_shortEscapes {e c : Char} (h : shortEscape? e = some c) : (e, c) ∈ shortEscapes := by
  unfold shortEscape? at h
  split at h <;> cases h <;> decide

/-- What an escape with a code is read as is spelled by it, in front of the rest of the string. -/
theorem codeEscape?_eq_some {u : StringUnit} {us : List StringUnit} {s' : List Char}
    (h : codeEscape? s = some (u, s')) (hs' : s' = t ++ '"' :: rest) (hus : SpellsUnits us t) :
    ∃ t', '\\' :: 'u' :: s = t' ++ '"' :: rest ∧ SpellsUnits (u :: us) t' := by
  simp only [codeEscape?, Option.bind_eq_bind, Option.bind_eq_some_iff, Prod.exists,
    Option.pure_def] at h
  obtain ⟨n, s₁, hcode, h⟩ := h
  obtain ⟨ds, rfl, hn⟩ := hex4?_eq_some hcode
  split at h
  · rename_i hhigh
    have hfirst := (isHigh_iff n).1 hhigh
    split at h
    · rename_i n' s₂ hlow
      obtain ⟨rfl, rfl⟩ := Prod.mk.inj (Option.some.inj h)
      obtain ⟨ds', rfl, hn', hsecond⟩ := low?_eq_some hlow
      exact ⟨_, by simp [hs'], .pair hn hfirst hn' hsecond hus⟩
    · rename_i hlow
      obtain ⟨rfl, rfl⟩ := Prod.mk.inj (Option.some.inj h)
      refine ⟨_, by simp [hs'], .loneFirst hn hfirst ?_ hus⟩
      rintro ⟨ds', n', t', hn', hsecond, rfl⟩
      rw [hs', List.cons_append, List.cons_append, List.append_assoc,
        low?_of_secondHalf hn' hsecond] at hlow
      cases hlow
  · rename_i hhigh
    have hfirst : ¬ FirstHalf n := fun hfirst => hhigh ((isHigh_iff n).2 hfirst)
    obtain ⟨rfl, rfl⟩ := Prod.mk.inj (Option.some.inj h)
    by_cases hlow : isLow n = true
    · have hunit : StringUnit.ofCode n = .lone n := by simp [StringUnit.ofCode, hlow]
      rw [hunit]
      exact ⟨_, by simp [hs'], .loneSecond hn ((isLow_iff n).1 hlow) hus⟩
    · have hunit : StringUnit.ofCode n = .character (Char.ofNat n) := by
        simp [StringUnit.ofCode, hlow, hhigh]
      rw [hunit]
      exact ⟨_, by simp [hs'],
        .code hn hfirst (fun hsecond => hlow ((isLow_iff n).2 hsecond)) hus⟩

/-- An escape that is read spells its unit, whatever stands behind it. -/
theorem escape?_eq_some {u : StringUnit} {us : List StringUnit} {s' : List Char}
    (h : escape? s = some (u, s')) (hs' : s' = t ++ '"' :: rest) (hus : SpellsUnits us t) :
    ∃ t', '\\' :: s = t' ++ '"' :: rest ∧ SpellsUnits (u :: us) t' := by
  unfold escape? at h
  split at h
  · cases h
  · exact codeEscape?_eq_some h hs' hus
  · obtain ⟨c, hc, he⟩ := Option.map_eq_some_iff.1 h
    obtain ⟨rfl, rfl⟩ := Prod.mk.inj he
    exact ⟨_, by simp [hs'], .short (mem_shortEscapes hc) hus⟩

/-- **What is read as a string is spelled,** up to the closing quote. -/
theorem units?_eq_some {us : List StringUnit} (h : units? fuel s = some (us, rest)) :
    ∃ t, s = t ++ '"' :: rest ∧ SpellsUnits us t := by
  induction fuel generalizing s us with
  | zero => cases h
  | succ fuel ih =>
    cases s with
    | nil => cases h
    | cons c s =>
      rw [units?] at h
      split at h
      · rename_i hquote
        obtain ⟨rfl, rfl⟩ := Prod.mk.inj (Option.some.inj h)
        exact ⟨[], by simp [hquote], .nil⟩
      split at h
      · rename_i hslash
        simp only [Option.bind_eq_bind, Option.bind_eq_some_iff, Prod.exists, Option.pure_def,
          Option.some.injEq, Prod.mk.injEq] at h
        obtain ⟨u, s', hu, us', rest', hus, rfl, rfl⟩ := h
        obtain ⟨t, hs', hspells⟩ := ih hus
        rw [hslash]
        exact escape?_eq_some hu hs' hspells
      split at h
      · cases h
      · rename_i hquote hslash hcontrol
        simp only [Option.bind_eq_bind, Option.bind_eq_some_iff, Prod.exists, Option.pure_def,
          Option.some.injEq, Prod.mk.injEq] at h
        obtain ⟨us', rest', hus, rfl, rfl⟩ := h
        obtain ⟨t, rfl, hspells⟩ := ih hus
        exact ⟨c :: t, rfl, .plain (Nat.not_lt.1 hcontrol) hquote hslash hspells⟩

/-! ### Values -/

/-- What is skipped are blanks. -/
theorem exists_blanks (s : List Char) : ∃ w, Blanks w ∧ s = w ++ skipBlank s :=
  ⟨s.takeWhile isBlank, fun _ hc => isBlank_iff.1 (List.mem_takeWhile_imp hc),
    List.takeWhile_append_dropWhile.symm⟩

/-- Blanks after blanks are blanks. -/
theorem Blanks.append (hw : Blanks w) {w' : List Char} (hw' : Blanks w') : Blanks (w ++ w') :=
  fun c hc => (List.mem_append.1 hc).elim (hw c) (hw' c)

/-- Items may begin with blanks. -/
theorem SpellsItems.blanks_append {vs : List Json} (h : SpellsItems vs t) (hw : Blanks w) :
    SpellsItems vs (w ++ t) := by
  cases h with
  | last hw₀ h hw' =>
    rw [← List.append_assoc]
    exact .last (hw.append hw₀) h hw'
  | cons hw₀ h hw' hs =>
    rw [← List.append_assoc]
    exact .cons (hw.append hw₀) h hw' hs

/-- Members may begin with blanks. -/
theorem SpellsMembers.blanks_append {ms : List (List StringUnit × Json)} (h : SpellsMembers ms t)
    (hw : Blanks w) : SpellsMembers ms (w ++ t) := by
  cases h with
  | last hw₀ hn hw₁ hw₂ h hw' =>
    rw [← List.append_assoc]
    exact .last (hw.append hw₀) hn hw₁ hw₂ h hw'
  | cons hw₀ hn hw₁ hw₂ h hw' hs =>
    rw [← List.append_assoc]
    exact .cons (hw.append hw₀) hn hw₁ hw₂ h hw' hs

/-- With this fuel, what is read as a value is spelled. -/
def OnlyValues (fuel : Nat) : Prop :=
  ∀ v s rest, value? fuel s = some (v, rest) → ∃ t, s = t ++ rest ∧ Spells v t

/-- With this fuel, what is read as the items of an array is spelled. -/
def OnlyItems (fuel : Nat) : Prop :=
  ∀ vs s rest, items? fuel s = some (vs, rest) → ∃ t, s = t ++ ']' :: rest ∧ SpellsItems vs t

/-- With this fuel, what is read as the members of an object is spelled. -/
def OnlyMembers (fuel : Nat) : Prop :=
  ∀ ms s rest, members? fuel s = some (ms, rest) →
    ∃ t, s = t ++ '\x7d' :: rest ∧ SpellsMembers ms t

/-- A word is read only where the text begins with it, and as the value that it stands for. -/
theorem literal_eq_some {p : List Char} {v v' : Json}
    (h : ((Text.dropPrefix? p s).map fun rest => (v, rest)) = some (v', rest)) :
    v = v' ∧ s = p ++ rest := by
  obtain ⟨rest', hrest, he⟩ := Option.map_eq_some_iff.1 h
  obtain ⟨rfl, rfl⟩ := Prod.mk.inj he
  exact ⟨rfl, Text.dropPrefix?_eq_some_iff.1 hrest⟩

/-- With one more step of fuel only values are read as values, if this holds of items and members.
-/
theorem onlyValues_succ (hitems : OnlyItems fuel) (hmembers : OnlyMembers fuel) :
    OnlyValues (fuel + 1) := by
  intro v s rest h
  cases s with
  | nil => cases h
  | cons c s =>
    obtain ⟨w, hw, hs⟩ := exists_blanks s
    -- one case for each character that a value can begin with, in the order of the reader
    rw [value?] at h
    split at h
    · rename_i hc
      obtain ⟨⟨us, rest'⟩, hus, he⟩ := Option.map_eq_some_iff.1 h
      obtain ⟨rfl, rfl⟩ := Prod.mk.inj he
      obtain ⟨t, rfl, hspells⟩ := units?_eq_some hus
      exact ⟨_, by simp [hc], .string hspells⟩
    split at h
    · rename_i hc
      split at h
      · rename_i rest' hclose
        obtain ⟨rfl, rfl⟩ := Prod.mk.inj (Option.some.inj h)
        exact ⟨_, by rw [hc, hs, hclose]; simp, .emptyArray hw⟩
      · obtain ⟨⟨vs, rest'⟩, hvs, he⟩ := Option.map_eq_some_iff.1 h
        obtain ⟨rfl, rfl⟩ := Prod.mk.inj he
        obtain ⟨t, ht, hspells⟩ := hitems _ _ _ hvs
        exact ⟨_, by rw [hc, hs, ht]; simp, .array (hspells.blanks_append hw)⟩
    split at h
    · rename_i hc
      split at h
      · rename_i rest' hclose
        obtain ⟨rfl, rfl⟩ := Prod.mk.inj (Option.some.inj h)
        exact ⟨_, by rw [hc, hs, hclose]; simp, .emptyObject hw⟩
      · obtain ⟨⟨ms, rest'⟩, hms, he⟩ := Option.map_eq_some_iff.1 h
        obtain ⟨rfl, rfl⟩ := Prod.mk.inj he
        obtain ⟨t, ht, hspells⟩ := hmembers _ _ _ hms
        exact ⟨_, by rw [hc, hs, ht]; simp, .object (hspells.blanks_append hw)⟩
    split at h
    · rename_i hc
      obtain ⟨rfl, rfl⟩ := literal_eq_some h
      exact ⟨_, by rw [hc]; rfl, .nullLiteral⟩
    split at h
    · rename_i hc
      obtain ⟨rfl, rfl⟩ := literal_eq_some h
      exact ⟨_, by rw [hc]; rfl, .trueLiteral⟩
    split at h
    · rename_i hc
      obtain ⟨rfl, rfl⟩ := literal_eq_some h
      exact ⟨_, by rw [hc]; rfl, .falseLiteral⟩
    · obtain ⟨⟨n, rest'⟩, hn, he⟩ := Option.map_eq_some_iff.1 h
      obtain ⟨rfl, rfl⟩ := Prod.mk.inj he
      obtain ⟨hs, hnumber⟩ := number?_eq_some hn
      exact ⟨_, hs, .number hnumber⟩

/-- With one more step of fuel only items are read as items, if this holds of values and of the
items behind them. -/
theorem onlyItems_succ (hvalues : OnlyValues fuel) (hitems : OnlyItems fuel) :
    OnlyItems (fuel + 1) := by
  intro vs s rest h
  simp only [items?, Option.bind_eq_bind, Option.bind_eq_some_iff, Prod.exists,
    Option.pure_def] at h
  obtain ⟨v, s₁, hv, h⟩ := h
  obtain ⟨t, rfl, hspells⟩ := hvalues _ _ _ hv
  obtain ⟨w, hw, hs₁⟩ := exists_blanks s₁
  split at h
  · rename_i rest' hclose
    obtain ⟨rfl, rfl⟩ := Prod.mk.inj (Option.some.inj h)
    refine ⟨[] ++ (t ++ w), ?_, .last (List.forall_mem_nil _) hspells hw⟩
    rw [hs₁, hclose]
    simp
  · rename_i s₂ hcomma
    simp only [Option.bind_eq_some_iff, Prod.exists, Option.some.injEq, Prod.mk.injEq] at h
    obtain ⟨vs', rest', hvs, rfl, rfl⟩ := h
    obtain ⟨ts, hts, hrest⟩ := hitems _ _ _ hvs
    obtain ⟨w', hw', hs₂⟩ := exists_blanks s₂
    refine ⟨[] ++ (t ++ (w ++ ',' :: (w' ++ ts))), ?_,
      .cons (List.forall_mem_nil _) hspells hw (hrest.blanks_append hw')⟩
    rw [hs₁, hcomma, hs₂, hts]
    simp
  · cases h

/-- With one more step of fuel only members are read as members, if this holds of values and of the
members behind them. -/
theorem onlyMembers_succ (hvalues : OnlyValues fuel) (hmembers : OnlyMembers fuel) :
    OnlyMembers (fuel + 1) := by
  intro ms s rest h
  cases s with
  | nil => cases h
  | cons c s =>
    rw [members?] at h
    split at h
    rotate_left
    · cases h
    rename_i hc
    simp only [Option.bind_eq_bind, Option.bind_eq_some_iff, Prod.exists, Option.pure_def] at h
    -- name, colon and value are read one after the other, with the blanks that were skipped between
    obtain ⟨us, s₁, hus, h⟩ := h
    obtain ⟨n, rfl, hname⟩ := units?_eq_some hus
    obtain ⟨w₁, hw₁, hs₁⟩ := exists_blanks s₁
    split at h
    rotate_left
    · cases h
    rename_i s₂ hcolon
    simp only [Option.bind_eq_some_iff, Prod.exists] at h
    obtain ⟨v, s₃, hv, h⟩ := h
    obtain ⟨w₂, hw₂, hs₂⟩ := exists_blanks s₂
    obtain ⟨t, ht, hspells⟩ := hvalues _ _ _ hv
    obtain ⟨w, hw, hs₃⟩ := exists_blanks s₃
    split at h
    · rename_i rest' hclose
      obtain ⟨rfl, rfl⟩ := Prod.mk.inj (Option.some.inj h)
      refine ⟨[] ++ '"' :: (n ++ '"' :: (w₁ ++ ':' :: (w₂ ++ (t ++ w)))), ?_,
        .last (List.forall_mem_nil _) hname hw₁ hw₂ hspells hw⟩
      rw [hc, hs₁, hcolon, hs₂, ht, hs₃, hclose]
      simp
    · rename_i s₄ hcomma
      simp only [Option.bind_eq_some_iff, Prod.exists, Option.some.injEq, Prod.mk.injEq] at h
      obtain ⟨ms', rest', hms, rfl, rfl⟩ := h
      obtain ⟨ts, hts, hrest⟩ := hmembers _ _ _ hms
      obtain ⟨w', hw', hs₄⟩ := exists_blanks s₄
      refine ⟨[] ++ '"' :: (n ++ '"' :: (w₁ ++ ':' :: (w₂ ++ (t ++ (w ++ ',' :: (w' ++ ts)))))), ?_,
        .cons (List.forall_mem_nil _) hname hw₁ hw₂ hspells hw (hrest.blanks_append hw')⟩
      rw [hc, hs₁, hcolon, hs₂, ht, hs₃, hcomma, hs₄, hts]
      simp
    · cases h

/-- With whatever fuel, only texts of the grammar are read: again by induction on the fuel, for
all three readers at once. -/
theorem only_of_fuel (fuel : Nat) : OnlyValues fuel ∧ OnlyItems fuel ∧ OnlyMembers fuel := by
  induction fuel with
  | zero =>
    exact ⟨(fun _ _ _ h => nomatch h), (fun _ _ _ h => nomatch h), fun _ _ _ h => nomatch h⟩
  | succ fuel ih =>
    obtain ⟨hvalues, hitems, hmembers⟩ := ih
    exact ⟨onlyValues_succ hitems hmembers, onlyItems_succ hvalues hitems,
      onlyMembers_succ hvalues hmembers⟩

/-- **A whole text is read as a value exactly if it spells this value,** with blanks around it or
not. -/
theorem parse?_eq_some_iff {v : Json} :
    parse? s = some v ↔ ∃ w t w', Blanks w ∧ Spells v t ∧ Blanks w' ∧ s = w ++ (t ++ w') := by
  constructor
  · intro h
    unfold parse? at h
    split at h
    · rename_i v' rest hread
      split at h
      · rename_i hend
        obtain rfl := Option.some.inj h
        obtain ⟨t, hs, hspells⟩ := (only_of_fuel _).1 _ _ _ hread
        obtain ⟨w, hw, hw₀⟩ := exists_blanks s
        obtain ⟨w', hw', hrest⟩ := exists_blanks rest
        rw [hend, List.append_nil] at hrest
        rw [hs, hrest] at hw₀
        exact ⟨w, t, w', hw, hspells, hw', hw₀⟩
      · cases h
    · cases h
  · rintro ⟨w, t, w', hw, hspells, hw', rfl⟩
    exact parse?_of_spells hw hspells hw'

/-- **The grammar is unambiguous:** no text spells two values. -/
theorem Spells.eq_of_spells {v v' : Json} (h : Spells v t) (h' : Spells v' t) : v = v' := by
  have hnil : Blanks [] := List.forall_mem_nil _
  have hread := parse?_of_spells hnil h hnil
  rw [parse?_of_spells hnil h' hnil] at hread
  exact (Option.some.inj hread).symm

end Json
end LiveBuild
