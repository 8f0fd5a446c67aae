/-
# Texts can be read back

What a text is written as in UTF-8 is read as that text, without a fault (`scan_encode`).  It
is enough to see this for one character: the first byte tells how many follow it and between
which bounds the next one lies, and the bits of all of them are the character's number.

Nothing else is read as a text: the bounds leave one way to write each character
(`encode_of_step`).  So the bytes that are accepted are those of texts (`decode_eq_ok_iff`),
which is to say valid UTF-8 (`isText_iff`).
-/

import LiveBuild.Text.Utf8

namespace LiveBuild
namespace Text
namespace Utf8

/-- What is known of a character: its number is neither half of a pair nor too large. -/
theorem toNat_bounds (c : Char) : c.toNat < 0xD800 ∨ 0xDFFF < c.toNat ∧ c.toNat < 0x110000 := c.valid

/-- A byte within its bounds is taken. -/
theorem tails_succ {owed low high bits taken b : Nat} (hb : b < 256) (hlow : low ≤ b)
    (hhigh : b ≤ high) (rest : Bytes) :
    tails (owed + 1) low high bits taken (UInt8.ofNat b :: rest) =
      tails owed 0x80 0xBF (bits * 64 + b % 64) (taken + 1) rest := by
  have hbyte : (UInt8.ofNat b).toNat = b := UInt8.toNat_ofNat_of_lt hb
  rw [tails, hbyte, if_pos ⟨hlow, hhigh⟩]

/-- The bounds behind the first of three bytes. -/
theorem lead?_three {v : Nat} (hlow : 0x800 ≤ v) (hhigh : v ≤ 0xFFFF)
    (hpair : v < 0xD800 ∨ 0xDFFF < v) :
    ∃ low high, lead? (v / 4096 % 16 + 0xE0) = some ⟨2, low, high, v / 4096⟩ ∧
      low ≤ v / 64 % 64 + 0x80 ∧ v / 64 % 64 + 0x80 ≤ high := by
  have hbits : v / 4096 % 16 = v / 4096 := Nat.mod_eq_of_lt (by omega)
  rw [hbits]
  by_cases hfirst : v / 4096 = 0
  · refine ⟨0xA0, 0xBF, ?_, by omega, by omega⟩
    rw [hfirst]
    rfl
  · by_cases hsplit : v / 4096 = 0xD
    · refine ⟨0x80, 0x9F, ?_, by omega, by omega⟩
      rw [hsplit]
      rfl
    · refine ⟨0x80, 0xBF, ?_, by omega, by omega⟩
      rw [lead?, if_neg (by omega), if_neg (by omega), if_neg (by omega), if_neg (by omega),
        if_pos (by omega), Nat.add_sub_cancel]

/-- The bounds behind the first of four bytes. -/
theorem lead?_four {v : Nat} (hlow : 0x10000 ≤ v) (hhigh : v < 0x110000) :
    ∃ low high, lead? (v / 262144 % 8 + 0xF0) = some ⟨3, low, high, v / 262144⟩ ∧
      low ≤ v / 4096 % 64 + 0x80 ∧ v / 4096 % 64 + 0x80 ≤ high := by
  have hbits : v / 262144 % 8 = v / 262144 := Nat.mod_eq_of_lt (by omega)
  rw [hbits]
  by_cases hfirst : v / 262144 = 0
  · refine ⟨0x90, 0xBF, ?_, by omega, by omega⟩
    rw [hfirst]
    rfl
  · by_cases hlast : v / 262144 = 4
    · refine ⟨0x80, 0x8F, ?_, by omega, by omega⟩
      rw [hlast]
      rfl
    · refine ⟨0x80, 0xBF, ?_, by omega, by omega⟩
      rw [lead?, if_neg (by omega), if_neg (by omega), if_neg (by omega), if_neg (by omega),
        if_neg (by omega), if_neg (by omega), if_pos (by omega), Nat.add_sub_cancel]

/-- **The bytes of a character are read as the character.** -/
theorem step_encode (c : Char) (rest : Bytes) :
    ∃ b s, String.utf8EncodeChar c ++ rest = b :: s ∧ step b s = .character c rest := by
  have hc : Char.ofNat c.toNat = c := Char.ofNat_toNat c
  have hvalid := toNat_bounds c
  have hval : c.val.toNat = c.toNat := rfl
  unfold String.utf8EncodeChar
  rw [hval]
  generalize c.toNat = v at hc hvalid
  -- one case for each number of octets: the lead announces the others, whose bits give `v` again
  have hbyte : ∀ {b : Nat}, b < 256 → (UInt8.ofNat b).toNat = b := UInt8.toNat_ofNat_of_lt
  dsimp only
  split
  · rename_i hone
    refine ⟨_, _, rfl, ?_⟩
    have hlead : lead? v = some ⟨0, 0, 0, v⟩ := if_pos hone
    rw [step, hbyte (by omega), hlead]
    exact congrArg (Step.character · rest) hc
  · split
    · refine ⟨_, _, rfl, ?_⟩
      have hlead : lead? (v / 64 % 32 + 0xC0) = some ⟨1, 0x80, 0xBF, v / 64⟩ := by
        rw [lead?, if_neg (by omega), if_pos (by omega), Nat.add_sub_cancel,
          Nat.mod_eq_of_lt (by omega)]
      have hbits : v / 64 * 64 + (v % 64 + 0x80) % 64 = v := by omega
      rw [step, hbyte (by omega), hlead]
      simp only [List.append_eq, List.cons_append, List.nil_append]
      rw [tails_succ (by omega) (by omega) (by omega), hbits]
      exact congrArg (Step.character · rest) hc
    · split
      · refine ⟨_, _, rfl, ?_⟩
        obtain ⟨low, high, hlead, hlow, hhigh⟩ := lead?_three (v := v) (by omega) (by omega) (by omega)
        have hbits : (v / 4096 * 64 + (v / 64 % 64 + 0x80) % 64) * 64 + (v % 64 + 0x80) % 64 = v := by
          omega
        rw [step, hbyte (by omega), hlead]
        simp only [List.append_eq, List.cons_append, List.nil_append]
        rw [tails_succ (by omega) hlow hhigh, tails_succ (by omega) (by omega) (by omega), hbits]
        exact congrArg (Step.character · rest) hc
      · refine ⟨_, _, rfl, ?_⟩
        obtain ⟨low, high, hlead, hlow, hhigh⟩ := lead?_four (v := v) (by omega) (by omega)
        have hbits : ((v / 262144 * 64 + (v / 4096 % 64 + 0x80) % 64) * 64 +
            (v / 64 % 64 + 0x80) % 64) * 64 + (v % 64 + 0x80) % 64 = v := by
          omega
        rw [step, hbyte (by omega), hlead]
        simp only [List.append_eq, List.cons_append, List.nil_append]
        rw [tails_succ (by omega) hlow hhigh, tails_succ (by omega) (by omega) (by omega),
          tails_succ (by omega) (by omega) (by omega), hbits]
        exact congrArg (Step.character · rest) hc

/-- **A text is written in whole characters.** -/
theorem scan_encode (s : String) : scan (encode s) = s.toList.map Piece.character := by
  rw [encode]
  induction s.toList with
  | nil => rw [List.flatMap_nil, scan, List.map_nil]
  | cons c cs ih =>
    obtain ⟨b, rest, hbytes, hstep⟩ := step_encode c (cs.flatMap String.utf8EncodeChar)
    rw [List.flatMap_cons, hbytes, scan]
    split
    · rename_i h
      rw [hstep] at h
      cases h
      rw [ih, List.map_cons]
    · rename_i h
      rw [hstep] at h
      cases h
    · rename_i h
      rw [hstep] at h
      cases h

/-- **What a text is written as is read as the text.** -/
theorem decodeLossy_encode (s : String) : decodeLossy (encode s) = s := by
  rw [decodeLossy, scan_encode, List.map_map]
  exact (congrArg String.ofList (List.map_id _)).trans String.ofList_toList

/-! ### Bytes that are read are those of the text -/

/-- The table of first bytes, by the number of bytes that follow. -/
theorem lead?_cases {b : Nat} {l : Lead} (h : lead? b = some l) :
    (l.following = 0 ∧ l.bits = b ∧ b ≤ 0x7F) ∨
      (l.following = 1 ∧ l.bits = b - 0xC0 ∧ 0xC2 ≤ b ∧ b ≤ 0xDF ∧ l.low = 0x80 ∧ l.high = 0xBF) ∨
      (l.following = 2 ∧ l.bits = b - 0xE0 ∧ 0xE0 ≤ b ∧ b ≤ 0xEF ∧ 0x80 ≤ l.low ∧ l.high ≤ 0xBF ∧
        (b = 0xE0 → l.low = 0xA0) ∧ (b = 0xED → l.high = 0x9F)) ∨
      (l.following = 3 ∧ l.bits = b - 0xF0 ∧ 0xF0 ≤ b ∧ b ≤ 0xF4 ∧ 0x80 ≤ l.low ∧ l.high ≤ 0xBF ∧
        (b = 0xF0 → l.low = 0x90) ∧ (b = 0xF4 → l.high = 0x8F)) := by
  unfold lead? at h
  repeat' split at h
  all_goals cases h
  all_goals grind

/-- A character that is not complete goes on with a byte within the bounds. -/
theorem exists_of_tails_succ {owed low high bits taken : Nat} {s rest : Bytes} {c : Char}
    (h : tails (owed + 1) low high bits taken s = .character c rest) :
    ∃ b s', s = b :: s' ∧ low ≤ b.toNat ∧ b.toNat ≤ high ∧
      tails owed 0x80 0xBF (bits * 64 + b.toNat % 64) (taken + 1) s' = .character c rest := by
  cases s with
  | nil => cases h
  | cons b s' =>
    rw [tails] at h
    split at h
    · rename_i hb
      exact ⟨b, s', rfl, hb.1, hb.2, h⟩
    · cases h

/-- A byte is its number. -/
theorem ofNat_eq {n : Nat} (b : UInt8) (h : n = b.toNat) : UInt8.ofNat n = b := by
  rw [h, UInt8.ofNat_toNat]

/-- A number of a character is that character's number. -/
theorem val_ofNat {n : Nat} (h : n < 0xD800 ∨ 0xDFFF < n ∧ n < 0x110000) :
    (Char.ofNat n).val.toNat = n := by
  have hv : n.isValidChar := h
  rw [Char.ofNat, dif_pos hv]
  rfl

/-- **A character is read from no other bytes than it is written as.** -/
theorem encode_of_step {b : UInt8} {s rest : Bytes} {c : Char} (h : step b s = .character c rest) :
    b :: s = String.utf8EncodeChar c ++ rest := by
  have hb := b.toNat_lt
  unfold step at h
  cases hl : lead? b.toNat with
  | none =>
    rw [hl] at h
    cases h
  | some l =>
    rw [hl] at h
    simp only at h
    -- as many bytes are read as the first one says; the bounds put the number into the range of
    -- the characters that are written in that many
    rcases lead?_cases hl with ⟨hn, hbits, hb₀⟩ | ⟨hn, hbits, hb₀⟩ | ⟨hn, hbits, hb₀⟩ |
      ⟨hn, hbits, hb₀⟩ <;> rw [hn, hbits] at h
    · cases h
      have hv := val_ofNat (n := b.toNat) (by omega)
      unfold String.utf8EncodeChar
      rw [hv, if_pos hb₀, ofNat_eq b rfl]
      rfl
    · obtain ⟨b₁, s, rfl, hlow₁, hhigh₁, h⟩ := exists_of_tails_succ h
      cases h
      have hv := val_ofNat (n := (b.toNat - 0xC0) * 64 + b₁.toNat % 64) (by omega)
      unfold String.utf8EncodeChar
      rw [hv, if_neg (by omega), if_pos (by omega), ofNat_eq b (by omega), ofNat_eq b₁ (by omega)]
      rfl
    · obtain ⟨b₁, s, rfl, hlow₁, hhigh₁, h⟩ := exists_of_tails_succ h
      obtain ⟨b₂, s, rfl, hlow₂, hhigh₂, h⟩ := exists_of_tails_succ h
      cases h
      have hv := val_ofNat
        (n := ((b.toNat - 0xE0) * 64 + b₁.toNat % 64) * 64 + b₂.toNat % 64) (by omega)
      unfold String.utf8EncodeChar
      rw [hv, if_neg (by omega), if_neg (by omega), if_pos (by omega), ofNat_eq b (by omega),
        ofNat_eq b₁ (by omega), ofNat_eq b₂ (by omega)]
      rfl
    · obtain ⟨b₁, s, rfl, hlow₁, hhigh₁, h⟩ := exists_of_tails_succ h
      obtain ⟨b₂, s, rfl, hlow₂, hhigh₂, h⟩ := exists_of_tails_succ h
      obtain ⟨b₃, s, rfl, hlow₃, hhigh₃, h⟩ := exists_of_tails_succ h
      cases h
      have hv := val_ofNat
        (n := (((b.toNat - 0xF0) * 64 + b₁.toNat % 64) * 64 + b₂.toNat % 64) * 64 + b₃.toNat % 64)
        (by omega)
      unfold String.utf8EncodeChar
      rw [hv, if_neg (by omega), if_neg (by omega), if_neg (by omega), ofNat_eq b (by omega),
        ofNat_eq b₁ (by omega), ofNat_eq b₂ (by omega), ofNat_eq b₃ (by omega)]
      rfl

/-- Bytes without a faulty piece are those of their characters. -/
theorem eq_flatMap_of_scan {s : Bytes} {cs : List Char} (h : scan s = cs.map Piece.character) :
    s = cs.flatMap String.utf8EncodeChar := by
  induction cs generalizing s with
  | nil =>
    cases s with
    | nil => rfl
    | cons b s =>
      rw [scan] at h
      split at h <;> cases h
  | cons c cs ih =>
    cases s with
    | nil =>
      rw [scan] at h
      cases h
    | cons b s =>
      rw [scan] at h
      split at h
      · rename_i c' rest hstep
        obtain ⟨hc, hrest⟩ := List.cons.inj h
        obtain rfl := Piece.character.inj hc
        rw [List.flatMap_cons, ← ih hrest]
        exact encode_of_step hstep
      · cases h
      · cases h

/-- The characters of pieces are found exactly if no piece is faulty. -/
theorem characters_eq_ok_iff {index : Nat} {ps : List Piece} {cs : List Char} :
    characters index ps = .ok cs ↔ ps = cs.map Piece.character := by
  induction ps generalizing index cs with
  | nil => cases cs <;> simp [characters]
  | cons p ps ih =>
    cases p with
    | character c =>
      have hrest : ∀ {rest}, characters (index + c.utf8Size) ps = .ok rest ↔
          ps = rest.map Piece.character := ih
      rw [characters]
      cases cs with
      | nil => split <;> simp
      | cons c' cs =>
        rw [List.map_cons, List.cons.injEq, Piece.character.injEq, ← hrest]
        split <;> simp_all
    | invalid n => cases cs <;> simp [characters]
    | incomplete => cases cs <;> simp [characters]

/-- **Bytes are read as a text exactly if the text is written as them.** -/
theorem decode_eq_ok_iff {s : Bytes} {text : String} : decode s = .ok text ↔ encode text = s := by
  have hmap : decode s = .ok text ↔ characters 0 (scan s) = .ok text.toList := by
    rw [decode]
    cases characters 0 (scan s) with
    | error f => simp [Except.map]
    | ok cs =>
      have htext : String.ofList cs = text ↔ cs = text.toList :=
        ⟨fun h => by rw [← h, String.toList_ofList], fun h => by rw [h, String.ofList_toList]⟩
      simp [Except.map, htext]
  rw [hmap, characters_eq_ok_iff]
  constructor
  · intro h
    exact (eq_flatMap_of_scan h).symm
  · rintro rfl
    exact scan_encode text

/-- The bytes are those of a text. -/
def IsText (s : Bytes) : Prop := ∃ text, encode text = s

/-- **Bytes are those of a text exactly if they are valid UTF-8.** -/
theorem isText_iff {s : Bytes} : IsText s ↔ s.toByteArray.IsValidUTF8 := by
  constructor
  · rintro ⟨text, rfl⟩
    exact ⟨text.toList, rfl⟩
  · rintro ⟨cs, hcs⟩
    refine ⟨String.ofList cs, ?_⟩
    rw [encode, String.toList_ofList]
    exact (List.toByteArray_inj.1 hcs).symm

/-- Bytes that are no text have a fault. -/
theorem exists_fault_iff {s : Bytes} : (∃ fault, decode s = .error fault) ↔ ¬ IsText s := by
  simp only [IsText, ← decode_eq_ok_iff]
  cases decode s <;> simp

end Utf8
end Text
end LiveBuild
