/-
# Every text of the grammar is read

A reader is given what is left of a text.  If that begins with something that the grammar
allows, the reader reads exactly this, and hands back what stands behind it:

| read | condition on what follows |
| --- | --- |
| digits, a fraction, an exponent, a number | it does not go on with the number (`Stops`) |
| the units of a string | it is the closing quote |
| items, members | it is the closing bracket or brace |

The fuel that is needed is the number of characters, so a whole text is always read
(`parse?_of_spells`).
-/

import LiveBuild.Json.Reader
import LiveBuild.Proofs.Json.Grammar

namespace LiveBuild
namespace Json

variable {s t w rest ds : List Char} {fuel : Nat}

/-! ### Numbers -/

/-- What follows digits is not another digit. -/
def NoDigit (rest : List Char) : Prop := ∀ c ∈ rest.head?, c.isDigit = false

/-- What follows a number does not go on with it. -/
def Stops (rest : List Char) : Prop :=
  ∀ c ∈ rest.head?, c.isDigit = false ∧ c ≠ '.' ∧ c ≠ 'e' ∧ c ≠ 'E'

/-- Where a number stops, no digit follows. -/
theorem Stops.noDigit (h : Stops rest) : NoDigit rest := fun c hc => (h c hc).1

/-- Taking digits takes the digits that are there, up to where they end. -/
theorem takeWhile_digits (hds : ∀ d ∈ ds, d.isDigit = true) (hrest : NoDigit rest) :
    (ds ++ rest).takeWhile Char.isDigit = ds := by
  rw [List.takeWhile_append_of_pos hds]
  cases rest with
  | nil => simp
  | cons c rest => simp [hrest c rfl]

/-- Dropping digits leaves what stands behind them. -/
theorem dropWhile_digits (hds : ∀ d ∈ ds, d.isDigit = true) (hrest : NoDigit rest) :
    (ds ++ rest).dropWhile Char.isDigit = rest := by
  rw [List.dropWhile_append_of_pos hds]
  cases rest with
  | nil => rfl
  | cons c rest => simp [hrest c rfl]

/-- **Digits are read to their end.** -/
theorem digits?_append (hds : IsDigits ds) (hrest : NoDigit rest) :
    digits? (ds ++ rest) = some (ds, rest) := by
  obtain ⟨hne, hall⟩ := hds
  rw [digits?, takeWhile_digits hall hrest, dropWhile_digits hall hrest]
  cases ds with
  | nil => exact absurd rfl hne
  | cons d ds => rfl

/-- An integer is read to its end: a zero alone, other integers with all their digits. -/
theorem integer?_append {i : List Char} (hi : IsInteger i) (hrest : NoDigit rest) :
    integer? (i ++ rest) = some (i, rest) := by
  cases hi with
  | zero => rfl
  | @digits d ds hd hne hds =>
    rw [List.cons_append, integer?, if_neg hne, if_pos hd, takeWhile_digits hds hrest,
      dropWhile_digits hds hrest]

/-- A fraction is read to its end, and where there is none, none is read unless a point follows. -/
theorem fraction?_append {f : List Char} (hf : IsFraction f) (hdigit : NoDigit rest)
    (hpoint : ∀ c ∈ rest.head?, c ≠ '.') : fraction? (f ++ rest) = some (f, rest) := by
  cases hf with
  | none =>
    cases rest with
    | nil => rfl
    | cons c rest =>
      have hc : c ≠ '.' := hpoint c rfl
      simp [fraction?, hc]
  | point hds => simp [fraction?, digits?_append hds hdigit]

/-- A sign before digits is read if there is one. -/
theorem sign_append {sgn : List Char} (hsgn : sgn = [] ∨ sgn = ['+'] ∨ sgn = ['-'])
    (hds : IsDigits ds) : sign (sgn ++ (ds ++ rest)) = (sgn, ds ++ rest) := by
  rcases hsgn with rfl | rfl | rfl
  · obtain ⟨hne, hall⟩ := hds
    obtain ⟨d, ds, rfl⟩ := List.exists_cons_of_ne_nil hne
    have hd := hall d List.mem_cons_self
    have hplus : d ≠ '+' := by rintro rfl; cases hd
    have hminus : d ≠ '-' := by rintro rfl; cases hd
    simp [sign, hplus, hminus]
  · rfl
  · rfl

/-- An exponent is read to its end, and where there is none, none is read. -/
theorem exponent?_append {e : List Char} (he : IsExponent e) (hrest : Stops rest) :
    exponent? (e ++ rest) = some (e, rest) := by
  cases he with
  | none =>
    cases rest with
    | nil => rfl
    | cons c rest =>
      obtain ⟨-, -, hc, hc'⟩ := hrest c rfl
      simp [exponent?, hc, hc']
  | @letter c sgn ds hc hsgn hds =>
    simp only [List.cons_append, List.append_assoc]
    rw [exponent?, if_pos hc, sign_append hsgn hds]
    simp [digits?_append hds hrest.noDigit]

/-- What an exponent begins with is neither a digit nor a point. -/
theorem head?_exponent {e : List Char} (he : IsExponent e) (hrest : Stops rest) :
    ∀ c ∈ (e ++ rest).head?, c.isDigit = false ∧ c ≠ '.' := by
  intro c hc
  cases he with
  | none => exact ⟨(hrest c hc).1, (hrest c hc).2.1⟩
  | letter hletter hsgn hds =>
    obtain rfl := Option.some.inj hc
    rcases hletter with rfl | rfl <;> decide

/-- What a fraction begins with is no digit. -/
theorem noDigit_fraction {f : List Char} (hf : IsFraction f) (hrest : NoDigit rest) :
    NoDigit (f ++ rest) := by
  cases hf with
  | none => exact hrest
  | point hds =>
    intro c hc
    obtain rfl := Option.some.inj hc
    rfl

/-- The three parts of a number without its sign are read one after the other, as none of them can
be taken for more of the one before. -/
theorem unsigned?_append {i f e : List Char} (hi : IsInteger i) (hf : IsFraction f)
    (he : IsExponent e) (hrest : Stops rest) :
    unsigned? (i ++ (f ++ (e ++ rest))) = some (i ++ (f ++ e), rest) := by
  have hexponent := head?_exponent he hrest
  have hdigit : NoDigit (e ++ rest) := fun c hc => (hexponent c hc).1
  have hpoint : ∀ c ∈ (e ++ rest).head?, c ≠ '.' := fun c hc => (hexponent c hc).2
  simp [unsigned?, integer?_append hi (noDigit_fraction hf hdigit),
    fraction?_append hf hdigit hpoint, exponent?_append he hrest]

/-- An integer begins with a digit. -/
theorem IsInteger.exists_cons {i : List Char} (hi : IsInteger i) :
    ∃ d ds, i = d :: ds ∧ d.isDigit = true := by
  cases hi with
  | zero => exact ⟨_, _, rfl, rfl⟩
  | digits hd hne hds => exact ⟨_, _, rfl, hd⟩

/-- A number that does not begin with a minus has no sign. -/
theorem number?_of_ne_minus {d : Char} (hd : d ≠ '-') (s : List Char) :
    number? (d :: s) = unsigned? (d :: s) := by
  simp [number?, hd]

/-- **Every number is read.** -/
theorem number?_append (ht : IsNumber t) (hrest : Stops rest) :
    number? (t ++ rest) = some (t, rest) := by
  cases ht with
  | @mk sgn i f e hsgn hi hf he =>
    have hunsigned := unsigned?_append hi hf he hrest
    simp only [List.append_assoc]
    rcases hsgn with rfl | rfl
    · obtain ⟨d, ds, rfl, hd⟩ := hi.exists_cons
      have hminus : d ≠ '-' := by rintro rfl; cases hd
      rw [List.nil_append, List.cons_append, number?_of_ne_minus hminus]
      exact hunsigned
    · rw [List.singleton_append, number?, hunsigned]
      rfl

/-! ### Strings -/

/-- Every hexadecimal digit is read with its value. -/
theorem hexDigit?_of_mem {c : Char} {n : Nat} (h : (c, n) ∈ hexDigits) : hexDigit? c = some n := by
  have hall : ∀ p ∈ hexDigits, hexDigit? p.1 = some p.2 := by decide
  exact hall _ h

/-- Four hexadecimal digits are read as the number that they are. -/
theorem hex4?_append {n : Nat} (h : Hex4 ds n) : hex4? (ds ++ rest) = some (n, rest) := by
  cases h with
  | mk ha hb hc hd =>
    simp [hex4?, hexDigit?_of_mem ha, hexDigit?_of_mem hb, hexDigit?_of_mem hc,
      hexDigit?_of_mem hd]
    omega

/-- The reader's test for the first half of a pair is the one of the grammar. -/
theorem isHigh_iff (n : Nat) : isHigh n = true ↔ FirstHalf n := by
  simp [isHigh, FirstHalf]

/-- The reader's test for the second half of a pair is the one of the grammar. -/
theorem isLow_iff (n : Nat) : isLow n = true ↔ SecondHalf n := by
  simp [isLow, SecondHalf]

/-- A short escape is read as the character that it stands for. -/
theorem escape?_short {e c : Char} (he : (e, c) ∈ shortEscapes) (s : List Char) :
    escape? (e :: s) = some (.character c, s) := by
  simp only [shortEscapes, List.mem_cons, List.not_mem_nil, Prod.mk.injEq, or_false] at he
  rcases he with ⟨rfl, rfl⟩ | ⟨rfl, rfl⟩ | ⟨rfl, rfl⟩ | ⟨rfl, rfl⟩ | ⟨rfl, rfl⟩ | ⟨rfl, rfl⟩ |
    ⟨rfl, rfl⟩ | ⟨rfl, rfl⟩ <;> rfl

/-- The second half of a pair is read where it follows as an escape. -/
theorem low?_of_secondHalf {n : Nat} (hn : Hex4 ds n) (hsecond : SecondHalf n) (s : List Char) :
    low? ('\\' :: 'u' :: (ds ++ s)) = some (n, s) := by
  simp [low?, hex4?_append hn, (isLow_iff n).2 hsecond]

/-- Where no second half is spelled, none is read, and the reader does not look behind the closing
quote for one. -/
theorem low?_eq_none {us : List StringUnit} (h : SpellsUnits us t) (ht : ¬ BeginsWithSecondHalf t)
    (rest : List Char) : low? (t ++ '"' :: rest) = none := by
  have hcode : ∀ ds n t', Hex4 ds n → t = '\\' :: 'u' :: (ds ++ t') →
      low? (t ++ '"' :: rest) = none := by
    rintro ds n t' hn rfl
    have hnot : ¬ isLow n = true := fun hlow => ht ⟨ds, n, t', hn, (isLow_iff n).1 hlow, rfl⟩
    simp [low?, hex4?_append hn, hnot]
  cases h with
  | nil => simp [low?]
  | plain hc hquote hslash h => simp [low?, hslash]
  | @short e c us t he h =>
    have hu : e ≠ 'u' := by
      rintro rfl
      simp [shortEscapes] at he
    simp [low?, hu]
  | code hn hfirst hsecond h => exact hcode _ _ _ hn rfl
  | pair hn hfirst hn' hsecond h => exact hcode _ _ _ hn rfl
  | loneFirst hn hfirst halone h => exact hcode _ _ _ hn rfl
  | loneSecond hn hsecond h => exact hcode _ _ _ hn rfl

/-- A code that is no half of a pair is read as its character. -/
theorem codeEscape?_character {n : Nat} (hn : Hex4 ds n) (hfirst : ¬ FirstHalf n)
    (hsecond : ¬ SecondHalf n) (s : List Char) :
    codeEscape? (ds ++ s) = some (.character (Char.ofNat n), s) := by
  rw [← isHigh_iff, Bool.not_eq_true] at hfirst
  rw [← isLow_iff, Bool.not_eq_true] at hsecond
  simp [codeEscape?, hex4?_append hn, hfirst, hsecond, StringUnit.ofCode]

/-- A second half with nothing before it is read as a lone half. -/
theorem codeEscape?_secondHalf {n : Nat} (hn : Hex4 ds n) (hsecond : SecondHalf n)
    (s : List Char) : codeEscape? (ds ++ s) = some (.lone n, s) := by
  have hfirst : isHigh n = false := by
    rw [← Bool.not_eq_true, isHigh_iff]
    simp only [FirstHalf, SecondHalf] at hsecond ⊢
    omega
  simp [codeEscape?, hex4?_append hn, hfirst, (isLow_iff n).2 hsecond, StringUnit.ofCode]

/-- A first half is read as a lone half if no second half follows. -/
theorem codeEscape?_firstHalf {n : Nat} (hn : Hex4 ds n) (hfirst : FirstHalf n)
    (hlow : low? s = none) : codeEscape? (ds ++ s) = some (.lone n, s) := by
  simp [codeEscape?, hex4?_append hn, (isHigh_iff n).2 hfirst, hlow]

/-- The two halves of a pair are read as one character. -/
theorem codeEscape?_pair {ds' : List Char} {n n' : Nat} (hn : Hex4 ds n) (hfirst : FirstHalf n)
    (hn' : Hex4 ds' n') (hsecond : SecondHalf n') (s : List Char) :
    codeEscape? (ds ++ '\\' :: 'u' :: (ds' ++ s)) =
      some (.character (Char.ofNat (0x10000 + (n - 0xD800) * 0x400 + (n' - 0xDC00))), s) := by
  simp [codeEscape?, hex4?_append hn, (isHigh_iff n).2 hfirst, low?_of_secondHalf hn' hsecond]

/-- A unit that is escaped is read, and the rest of the string after it. -/
theorem units?_escape {u : StringUnit} {us : List StringUnit} {s s' : List Char}
    (hu : escape? s = some (u, s')) (hus : units? fuel s' = some (us, rest)) :
    units? (fuel + 1) ('\\' :: s) = some (u :: us, rest) := by
  rw [units?, if_neg (by decide), if_pos rfl]
  simp [hu, hus]

/-- **Every string is read,** up to its closing quote. -/
theorem units?_append {us : List StringUnit} (h : SpellsUnits us t) (hfuel : t.length < fuel) :
    units? fuel (t ++ '"' :: rest) = some (us, rest) := by
  induction h generalizing fuel with
  | nil =>
    obtain ⟨fuel, rfl⟩ := Nat.exists_eq_succ_of_ne_zero (Nat.ne_of_gt hfuel)
    rfl
  | @plain c us t hc hquote hslash h ih =>
    obtain ⟨fuel, rfl⟩ := Nat.exists_eq_succ_of_ne_zero (Nat.ne_zero_of_lt hfuel)
    have hrest : units? fuel (t ++ '"' :: rest) = some (us, rest) := ih (by simp_all)
    rw [List.cons_append, units?, if_neg hquote, if_neg hslash, if_neg (Nat.not_lt.2 hc)]
    simp [hrest]
  | short he h ih =>
    obtain ⟨fuel, rfl⟩ := Nat.exists_eq_succ_of_ne_zero (Nat.ne_zero_of_lt hfuel)
    refine units?_escape (escape?_short he _) (ih ?_)
    simp at hfuel
    omega
  | code hn hfirst hsecond h ih =>
    obtain ⟨fuel, rfl⟩ := Nat.exists_eq_succ_of_ne_zero (Nat.ne_zero_of_lt hfuel)
    simp only [List.cons_append, List.append_assoc, List.length_cons, List.length_append] at hfuel ⊢
    exact units?_escape (codeEscape?_character hn hfirst hsecond _) (ih (by omega))
  | pair hn hfirst hn' hsecond h ih =>
    obtain ⟨fuel, rfl⟩ := Nat.exists_eq_succ_of_ne_zero (Nat.ne_zero_of_lt hfuel)
    simp only [List.cons_append, List.append_assoc, List.length_cons, List.length_append] at hfuel ⊢
    exact units?_escape (codeEscape?_pair hn hfirst hn' hsecond _) (ih (by omega))
  | loneFirst hn hfirst halone h ih =>
    obtain ⟨fuel, rfl⟩ := Nat.exists_eq_succ_of_ne_zero (Nat.ne_zero_of_lt hfuel)
    simp only [List.cons_append, List.append_assoc, List.length_cons, List.length_append] at hfuel ⊢
    have hlow := low?_eq_none h halone rest
    exact units?_escape (codeEscape?_firstHalf hn hfirst hlow) (ih (by omega))
  | loneSecond hn hsecond h ih =>
    obtain ⟨fuel, rfl⟩ := Nat.exists_eq_succ_of_ne_zero (Nat.ne_zero_of_lt hfuel)
    simp only [List.cons_append, List.append_assoc, List.length_cons, List.length_append] at hfuel ⊢
    exact units?_escape (codeEscape?_secondHalf hn hsecond _) (ih (by omega))

/-! ### Blanks -/

/-- Blanks are spaces, tabs and the two line ends, and nothing else. -/
theorem isBlank_iff {c : Char} : isBlank c = true ↔ c = ' ' ∨ c = '\t' ∨ c = '\r' ∨ c = '\n' := by
  simp [isBlank, or_assoc]

/-- Blanks in front make no difference once blanks are skipped. -/
theorem skipBlank_append (hw : Blanks w) (s : List Char) : skipBlank (w ++ s) = skipBlank s :=
  List.dropWhile_append_of_pos fun c hc => isBlank_iff.2 (hw c hc)

/-- Where something stands that is no blank, nothing is skipped. -/
theorem skipBlank_cons {c : Char} (hc : isBlank c = false) (s : List Char) :
    skipBlank (c :: s) = c :: s := by
  simp [skipBlank, hc]

/-- Of blanks alone nothing is left. -/
theorem skipBlank_of_blanks (hw : Blanks w) : skipBlank w = [] := by
  have h := skipBlank_append hw []
  rwa [List.append_nil] at h

/-- Neither a blank nor a character that closes or separates goes on with a number. -/
theorem stops_blanks (hw : Blanks w) {c : Char} (hc : c = ',' ∨ c = ']' ∨ c = '\x7d')
    (s : List Char) : Stops (w ++ c :: s) := by
  intro d hd
  cases w with
  | nil =>
    obtain rfl := Option.some.inj hd
    rcases hc with rfl | rfl | rfl <;> decide
  | cons b w =>
    obtain rfl := Option.some.inj hd
    rcases hw b List.mem_cons_self with rfl | rfl | rfl | rfl <;> decide

/-- A number stops where blanks follow. -/
theorem stops_of_blanks (hw : Blanks w) : Stops w := by
  intro c hc
  rcases hw c (List.mem_of_head? hc) with rfl | rfl | rfl | rfl <;> decide

/-! ### Values -/

/-- A number begins with a minus or with a digit. -/
theorem IsNumber.exists_cons (ht : IsNumber t) :
    ∃ c s, t = c :: s ∧ (c = '-' ∨ c.isDigit = true) := by
  cases ht with
  | mk hsgn hi hf he =>
    obtain ⟨d, ds, rfl, hd⟩ := hi.exists_cons
    rcases hsgn with rfl | rfl
    · exact ⟨_, _, rfl, .inr hd⟩
    · exact ⟨_, _, rfl, .inl rfl⟩

/-- What a number begins with is none of the characters that other values begin with. -/
theorem ne_of_number {c d : Char} (hc : c = '-' ∨ c.isDigit = true) (hminus : d ≠ '-')
    (hdigit : d.isDigit = false) : c ≠ d := by
  rintro rfl
  rcases hc with hc | hc
  · exact hminus hc
  · simp [hdigit] at hc

/-- A value begins with a character that is no blank and closes no array. -/
theorem Spells.exists_cons {v : Json} (h : Spells v t) :
    ∃ c s, t = c :: s ∧ isBlank c = false ∧ c ≠ ']' := by
  cases h with
  | number h =>
    obtain ⟨c, s, rfl, hc⟩ := h.exists_cons
    refine ⟨c, s, rfl, ?_, ne_of_number hc (by decide) (by decide)⟩
    rw [← Bool.not_eq_true, isBlank_iff]
    rintro (rfl | rfl | rfl | rfl) <;> exact ne_of_number hc (by decide) (by decide) rfl
  | _ => exact ⟨_, _, rfl, by decide, by decide⟩

/-- With this fuel, every value that is not too long is read. -/
def ReadsValues (fuel : Nat) : Prop :=
  ∀ v t rest, Spells v t → t.length ≤ fuel → Stops rest → value? fuel (t ++ rest) = some (v, rest)

/-- With this fuel, the items of every array that is not too long are read. -/
def ReadsItems (fuel : Nat) : Prop :=
  ∀ vs t rest, SpellsItems vs t → t.length < fuel →
    items? fuel (skipBlank (t ++ ']' :: rest)) = some (vs, rest)

/-- With this fuel, the members of every object that is not too long are read. -/
def ReadsMembers (fuel : Nat) : Prop :=
  ∀ ms t rest, SpellsMembers ms t → t.length < fuel →
    members? fuel (skipBlank (t ++ '\x7d' :: rest)) = some (ms, rest)

/-- Blanks before a value are skipped, and no more. -/
theorem Spells.skipBlank_append {v : Json} (h : Spells v t) (hw : Blanks w) (s : List Char) :
    skipBlank (w ++ (t ++ s)) = t ++ s := by
  obtain ⟨c, t', rfl, hblank, -⟩ := h.exists_cons
  rw [Json.skipBlank_append hw, List.cons_append, skipBlank_cons hblank]

/-- Blanks before a character that is none are skipped, and no more. -/
theorem skipBlank_append_cons (hw : Blanks w) {c : Char} (hc : isBlank c = false) (s : List Char) :
    skipBlank (w ++ c :: s) = c :: s := by
  rw [skipBlank_append hw, skipBlank_cons hc]

/-- The text of items does not begin as an array that is closed. -/
theorem SpellsItems.skipBlank_eq {vs : List Json} (h : SpellsItems vs t) (s : List Char) :
    ∃ c s', skipBlank (t ++ s) = c :: s' ∧ c ≠ ']' := by
  have hvalue : ∀ {v : Json} {w t : List Char} (s : List Char), Blanks w → Spells v t →
      ∃ c s', skipBlank (w ++ (t ++ s)) = c :: s' ∧ c ≠ ']' := by
    intro v w t s hw h
    rw [h.skipBlank_append hw]
    obtain ⟨c, t', rfl, -, hc⟩ := h.exists_cons
    exact ⟨c, t' ++ s, rfl, hc⟩
  cases h with
  | last hw h hw' => simpa using hvalue _ hw h
  | cons hw h hw' hs => simpa using hvalue _ hw h

/-- The text of members begins with a quote. -/
theorem SpellsMembers.skipBlank_eq {ms : List (List StringUnit × Json)} (h : SpellsMembers ms t)
    (s : List Char) : ∃ s', skipBlank (t ++ s) = '"' :: s' := by
  cases h with
  | last hw =>
    rw [List.append_assoc, List.cons_append, skipBlank_append_cons hw (by decide)]
    exact ⟨_, rfl⟩
  | cons hw =>
    rw [List.append_assoc, List.cons_append, skipBlank_append_cons hw (by decide)]
    exact ⟨_, rfl⟩

/-- With one more step of fuel values are read, if items and members are. -/
theorem readsValues_succ (hitems : ReadsItems fuel) (hmembers : ReadsMembers fuel) :
    ReadsValues (fuel + 1) := by
  intro v t rest h hfuel hrest
  cases h with
  | nullLiteral => simp [value?, Text.dropPrefix?]
  | trueLiteral => simp [value?, Text.dropPrefix?]
  | falseLiteral => simp [value?, Text.dropPrefix?]
  | number h =>
    have hread := number?_append h hrest
    obtain ⟨c, s, rfl, hc⟩ := h.exists_cons
    have hne : ∀ d : Char, d ≠ '-' → d.isDigit = false → c ≠ d :=
      fun d => ne_of_number hc
    rw [List.cons_append] at hread ⊢
    simp [value?, hne, hread]
  | @string us t h =>
    have hunits : units? fuel (t ++ '"' :: rest) = some (us, rest) :=
      units?_append h (by simp at hfuel; omega)
    simp [value?, hunits]
  | @emptyArray w hw =>
    have hclose := skipBlank_append_cons hw (c := ']') (by decide) rest
    simp [value?, hclose]
  | @array vs t h =>
    have hread := hitems vs t rest h (by simp at hfuel; omega)
    obtain ⟨c, s, hskip, hc⟩ := h.skipBlank_eq (']' :: rest)
    rw [hskip] at hread
    simp [value?, hskip, hc, hread]
  | @emptyObject w hw =>
    have hclose := skipBlank_append_cons hw (c := '\x7d') (by decide) rest
    simp [value?, hclose]
  | @object ms t h =>
    have hread := hmembers ms t rest h (by simp at hfuel; omega)
    obtain ⟨s, hskip⟩ := h.skipBlank_eq ('\x7d' :: rest)
    rw [hskip] at hread
    simp [value?, hskip, hread]

/-- With one more step of fuel items are read, if values and the items behind them are. -/
theorem readsItems_succ (hvalues : ReadsValues fuel) (hitems : ReadsItems fuel) :
    ReadsItems (fuel + 1) := by
  intro vs t rest h hfuel
  cases h with
  | @last v w t w' hw h hw' =>
    simp only [List.length_append] at hfuel
    have hvalue := hvalues v t (w' ++ ']' :: rest) h (by omega) (stops_blanks hw' (by simp) rest)
    have hclose := skipBlank_append_cons hw' (c := ']') (by decide) rest
    rw [List.append_assoc, List.append_assoc, h.skipBlank_append hw, items?]
    simp [hvalue, hclose]
  | @cons v vs w t w' ts hw h hw' hs =>
    simp only [List.length_append, List.length_cons] at hfuel
    have hvalue := hvalues v t (w' ++ ',' :: (ts ++ ']' :: rest)) h (by omega)
      (stops_blanks hw' (by simp) _)
    have hcomma := skipBlank_append_cons hw' (c := ',') (by decide) (ts ++ ']' :: rest)
    have hrest := hitems vs ts rest hs (by omega)
    simp only [List.append_assoc, List.cons_append]
    rw [h.skipBlank_append hw, items?]
    simp [hvalue, hcomma, hrest]

/-- With one more step of fuel members are read, if values and the members behind them are. -/
theorem readsMembers_succ (hvalues : ReadsValues fuel) (hmembers : ReadsMembers fuel) :
    ReadsMembers (fuel + 1) := by
  intro ms t rest h hfuel
  cases h with
  | @last us v w n w₁ w₂ t w' hw hn hw₁ hw₂ h hw' =>
    simp only [List.length_append, List.length_cons] at hfuel
    have hname : ∀ s, units? fuel (n ++ '"' :: s) = some (us, s) :=
      fun s => units?_append hn (by omega)
    have hvalue := hvalues v t (w' ++ '\x7d' :: rest) h (by omega)
      (stops_blanks hw' (by simp) rest)
    simp only [List.append_assoc, List.cons_append]
    rw [skipBlank_append_cons hw (by decide), members?, if_pos rfl]
    simp [hname, skipBlank_append_cons hw₁ (c := ':') (by decide), h.skipBlank_append hw₂, hvalue,
      skipBlank_append_cons hw' (c := '\x7d') (by decide)]
  | @cons us v ms w n w₁ w₂ t w' ts hw hn hw₁ hw₂ h hw' hs =>
    simp only [List.length_append, List.length_cons] at hfuel
    have hname : ∀ s, units? fuel (n ++ '"' :: s) = some (us, s) :=
      fun s => units?_append hn (by omega)
    have hvalue := hvalues v t (w' ++ ',' :: (ts ++ '\x7d' :: rest)) h (by omega)
      (stops_blanks hw' (by simp) _)
    have hrest := hmembers ms ts rest hs (by omega)
    simp only [List.append_assoc, List.cons_append]
    rw [skipBlank_append_cons hw (by decide), members?, if_pos rfl]
    simp [hname, skipBlank_append_cons hw₁ (c := ':') (by decide), h.skipBlank_append hw₂, hvalue,
      skipBlank_append_cons hw' (c := ',') (by decide), hrest]

/-- With fuel for its length, every text of the grammar is read.  The readers of values, of items
and of members call each other with less fuel, so the induction is on the fuel, for all three
at once. -/
theorem reads_of_fuel (fuel : Nat) : ReadsValues fuel ∧ ReadsItems fuel ∧ ReadsMembers fuel := by
  induction fuel with
  | zero =>
    refine ⟨fun v t rest h hfuel _ => ?_, fun vs t rest h hfuel => ?_, fun ms t rest h hfuel => ?_⟩
    · obtain ⟨c, s, rfl, -⟩ := h.exists_cons
      simp at hfuel
    · exact absurd hfuel (Nat.not_lt_zero _)
    · exact absurd hfuel (Nat.not_lt_zero _)
  | succ fuel ih =>
    obtain ⟨hvalues, hitems, hmembers⟩ := ih
    exact ⟨readsValues_succ hitems hmembers, readsItems_succ hvalues hitems,
      readsMembers_succ hvalues hmembers⟩

/-- **A whole text is read** if it spells a value, with blanks around it or not. -/
theorem parse?_of_spells {v : Json} {w' : List Char} (hw : Blanks w) (h : Spells v t)
    (hw' : Blanks w') : parse? (w ++ (t ++ w')) = some v := by
  have hfuel : t.length ≤ (w ++ (t ++ w')).length + 1 := by
    simp only [List.length_append]
    omega
  have hread := (reads_of_fuel _).1 v t w' h hfuel (stops_of_blanks hw')
  rw [parse?, h.skipBlank_append hw, hread]
  simp [skipBlank_of_blanks hw']

end Json
end LiveBuild
