/-
# Every line speaks for itself

Compiler output is cut into lines before it is read, and the cut is not the same everywhere: a
carriage return is dropped in front of a line feed and kept at the end of the text, and an empty
piece is a line in the middle of the text and none at its end.  What is said is the same:

| piece | line | says the same because |
| --- | --- | --- |
| `p␍`, a line feed behind it | `p` | a carriage return is a blank of the grammar (`parse?_concat`) |
| `p␍` at the end | `p␍` | |
| nothing, a line feed behind it | a blank line | a blank line says nothing |
| nothing at the end | no line | |

So an output says what its pieces between line feeds say, one after the other
(`parse_eq_pieces`), and from that comes that lines are independent (`parse_lines`).
-/

import LiveBuild.Proofs.Diagnostic.Decoding

namespace LiveBuild

namespace Json

variable {s t : List Char}

/-! ### The end of a value -/

/-- A digit is no blank. -/
theorem isBlank_of_isDigit {c : Char} (hc : c.isDigit = true) : isBlank c = false := by
  rw [← Bool.not_eq_true, isBlank_iff]
  rintro (rfl | rfl | rfl | rfl) <;> exact absurd hc (by decide)

/-- There is no blank in an integer. -/
theorem IsInteger.notBlank (h : IsInteger t) : ∀ c ∈ t, isBlank c = false := by
  intro c hc
  cases h with
  | zero =>
    obtain rfl := List.mem_singleton.1 hc
    decide
  | digits hd _ hds =>
    rcases List.mem_cons.1 hc with rfl | hc
    · exact isBlank_of_isDigit hd
    · exact isBlank_of_isDigit (hds c hc)

/-- There is no blank in a fraction. -/
theorem IsFraction.notBlank (h : IsFraction t) : ∀ c ∈ t, isBlank c = false := by
  intro c hc
  cases h with
  | none => cases hc
  | point hds =>
    rcases List.mem_cons.1 hc with rfl | hc
    · decide
    · exact isBlank_of_isDigit (hds.2 c hc)

/-- There is no blank in an exponent. -/
theorem IsExponent.notBlank (h : IsExponent t) : ∀ c ∈ t, isBlank c = false := by
  intro c hc
  cases h with
  | none => cases hc
  | letter hletter hsgn hds =>
    rw [List.cons_append, List.mem_cons, List.mem_append] at hc
    rcases hc with rfl | hc | hc
    · rcases hletter with rfl | rfl <;> decide
    · rcases hsgn with rfl | rfl | rfl
      · cases hc
      · obtain rfl := List.mem_singleton.1 hc
        decide
      · obtain rfl := List.mem_singleton.1 hc
        decide
    · exact isBlank_of_isDigit (hds.2 c hc)

/-- There is no blank in a number. -/
theorem IsNumber.notBlank (h : IsNumber t) : ∀ c ∈ t, isBlank c = false := by
  intro c hc
  cases h with
  | mk hsgn hi hf he =>
    rw [List.mem_append, List.mem_append, List.mem_append] at hc
    rcases hc with hc | hc | hc | hc
    · rcases hsgn with rfl | rfl
      · cases hc
      · obtain rfl := List.mem_singleton.1 hc
        decide
    · exact hi.notBlank c hc
    · exact hf.notBlank c hc
    · exact he.notBlank c hc

/-- A value ends with a character that is no blank. -/
theorem Spells.exists_concat {v : Json} (h : Spells v t) :
    ∃ r c, t = r ++ [c] ∧ isBlank c = false := by
  cases h with
  | nullLiteral => exact ⟨['n', 'u', 'l'], 'l', rfl, by decide⟩
  | trueLiteral => exact ⟨['t', 'r', 'u'], 'e', rfl, by decide⟩
  | falseLiteral => exact ⟨['f', 'a', 'l', 's'], 'e', rfl, by decide⟩
  | number h =>
    have hne : t ≠ [] := by
      obtain ⟨c, s, rfl, -⟩ := h.exists_cons
      exact List.cons_ne_nil c s
    obtain ⟨r, c, rfl⟩ := (List.eq_nil_or_concat' t).resolve_left hne
    exact ⟨r, c, rfl, h.notBlank c (by simp)⟩
  | string | emptyArray | array | emptyObject | object => exact ⟨_ :: _, _, rfl, by decide⟩

/-- **A blank behind a text** makes no difference to what the text is read as. -/
theorem parse?_concat (s : List Char) {c : Char} (hc : isBlank c = true) :
    parse? (s ++ [c]) = parse? s := by
  refine Option.ext fun v => ?_
  rw [parse?_eq_some_iff, parse?_eq_some_iff]
  constructor
  · rintro ⟨w, t, w', hw, ht, hw', hs⟩
    rcases List.eq_nil_or_concat' w' with rfl | ⟨x, d, rfl⟩
    · -- the blank would be the end of the value
      obtain ⟨r, d, rfl, hd⟩ := ht.exists_concat
      rw [List.append_nil, ← List.append_assoc] at hs
      obtain ⟨-, hcd⟩ := List.append_inj' hs rfl
      rw [← (List.cons.inj hcd).1, hc] at hd
      cases hd
    · rw [← List.append_assoc, ← List.append_assoc] at hs
      obtain ⟨rfl, -⟩ := List.append_inj' hs rfl
      exact ⟨w, t, x, hw, ht, fun a ha => hw' a (List.mem_append_left _ ha), List.append_assoc ..⟩
  · rintro ⟨w, t, w', hw, ht, hw', rfl⟩
    have hlast : Blanks [c] := by
      intro a ha
      obtain rfl := List.mem_singleton.1 ha
      exact isBlank_iff.1 hc
    exact ⟨w, t, w' ++ [c], hw, ht, hw'.append hlast, by simp⟩

end Json

namespace Text

/-- A character that is no separator goes to the last piece. -/
theorem exists_pieces_concat {a c : Char} (hc : c ≠ a) (s : List Char) :
    ∃ ps p, pieces a s = ps ++ [p] ∧ pieces a (s ++ [c]) = ps ++ [p ++ [c]] := by
  induction s with
  | nil => exact ⟨[], [], rfl, pieces_of_notMem (mt List.mem_singleton.1 hc.symm)⟩
  | cons d s ih =>
    obtain ⟨ps, p, hs, hsc⟩ := ih
    by_cases hd : d = a
    · exact ⟨[] :: ps, p, by simp [pieces, hd, hs], by simp [pieces, hd, hsc]⟩
    · cases ps with
      | nil => exact ⟨[], d :: p, by simp [pieces, hd, hs], by simp [pieces, hd, hsc]⟩
      | cons q ps => exact ⟨(d :: q) :: ps, p, by simp [pieces, hd, hs], by simp [pieces, hd, hsc]⟩

end Text

namespace CompilerOutput

variable (unit : String)

/-! ### One line -/

/-- **A carriage return at the end of a line** makes no difference to what the line says. -/
theorem diagnostic?_return (line : List Char) :
    diagnostic? unit (line ++ ['\r']) = diagnostic? unit line := by
  have hblank : Text.allBlank (line ++ ['\r']) = Text.allBlank line := by
    have hreturn : Text.isBlank '\r' = true := by decide
    simp [Text.allBlank, hreturn]
  have hmessage : message? (line ++ ['\r']) = message? line := by
    rw [message?, message?, Json.parse?_concat line (by decide)]
  rw [diagnostic?, diagnostic?, hblank, hmessage]

/-- A line is decoded alike with and without a return at its end. -/
theorem diagnostic?_withoutReturn (line : List Char) :
    diagnostic? unit (Text.withoutReturn line) = diagnostic? unit line := by
  rw [Text.withoutReturn]
  cases h : Text.dropSuffix? ['\r'] line with
  | none => rfl
  | some r =>
    rw [Text.dropSuffix?_eq_some_iff.1 h, diagnostic?_return]
    rfl

/-- A line says nothing if it is blank, or if there is no message on it. -/
theorem diagnostic?_of_garbage {line : List Char}
    (h : Text.allBlank line = true ∨ message? line = none) : diagnostic? unit line = none := by
  unfold diagnostic?
  split
  · rfl
  · rename_i hblank
    rw [h.resolve_left hblank]

/-! ### All lines -/

/-- Lines say what the pieces say that they were made of. -/
theorem filterMap_linesOfPieces (ps : List (List Char)) :
    (Text.linesOfPieces ps).filterMap (diagnostic? unit) = ps.filterMap (diagnostic? unit) := by
  fun_induction Text.linesOfPieces ps with
  | case1 => rfl
  | case2 => rfl
  | case3 p => rfl
  | case4 p q ps ih =>
    rw [List.filterMap_cons, List.filterMap_cons, diagnostic?_withoutReturn, ih]

/-- **An output says what its pieces between line feeds say,** in their order. -/
theorem parse_eq_pieces (output : String) :
    parse unit output = (Text.pieces '\n' output.toList).filterMap (diagnostic? unit) :=
  filterMap_linesOfPieces unit _

/-- A text in one piece says one thing or nothing. -/
theorem parse_of_notMem {line : String} (h : '\n' ∉ line.toList) :
    parse unit line = (diagnostic? unit line.toList).toList := by
  rw [parse_eq_pieces, Text.pieces_of_notMem h]
  cases hline : diagnostic? unit line.toList with
  | none => rw [List.filterMap_cons_none hline]; rfl
  | some d => rw [List.filterMap_cons_some hline]; rfl

/-- **A line end cuts a text in two** that are parsed one after the other. -/
theorem parse_newline (a b : String) :
    parse unit (a ++ "\n" ++ b) = parse unit a ++ parse unit b := by
  have hcut : (a ++ "\n" ++ b).toList = a.toList ++ '\n' :: b.toList := by
    rw [String.toList_append, String.toList_append, List.append_assoc]
    rfl
  rw [parse_eq_pieces, parse_eq_pieces, parse_eq_pieces, hcut, Text.pieces_append,
    List.filterMap_append]

/-- What is said in lines is parsed line by line. -/
theorem parse_intercalate (lines : List String) :
    parse unit ("\n".intercalate lines) = lines.flatMap (parse unit) := by
  induction lines with
  | nil => rfl
  | cons line lines ih =>
    cases lines with
    | nil => rw [String.intercalate_singleton, List.flatMap_singleton]
    | cons next lines =>
      rw [String.intercalate_cons_cons, parse_newline, ih]
      exact List.flatMap_cons.symm

/-- A return at the end of a text makes no difference. -/
theorem parse_return (a : String) : parse unit (a ++ "\r") = parse unit a := by
  have hlast : (a ++ "\r").toList = a.toList ++ ['\r'] := String.toList_append
  obtain ⟨ps, p, hpieces, hconcat⟩ :=
    Text.exists_pieces_concat (show '\r' ≠ '\n' by decide) a.toList
  rw [parse_eq_pieces, parse_eq_pieces, hlast, hconcat, hpieces, List.filterMap_append,
    List.filterMap_append, List.filterMap_cons, List.filterMap_cons, diagnostic?_return]

/-- **Lines are independent of each other.**

* What two texts say with a line feed between them is what the first one says, and then what the
  second one says, whatever they begin or end with.
* So lines put together say what each of them says on its own, in their order.
* A line says one thing or nothing, and a carriage return at its end makes no difference.
* A line that is blank or has no message on it can be left out. -/
theorem parse_lines :
    (∀ a b, parse unit (a ++ "\n" ++ b) = parse unit a ++ parse unit b) ∧
      (∀ lines, parse unit ("\n".intercalate lines) = lines.flatMap (parse unit)) ∧
      (∀ line, '\n' ∉ line.toList → parse unit line = (diagnostic? unit line.toList).toList) ∧
      (∀ a b, parse unit (a ++ "\r\n" ++ b) = parse unit (a ++ "\n" ++ b) ∧
        parse unit (a ++ "\r") = parse unit a) ∧
      ∀ line, '\n' ∉ line.toList → Text.allBlank line.toList = true ∨ message? line.toList = none →
        ∀ a b, parse unit (a ++ "\n" ++ line ++ "\n" ++ b) = parse unit (a ++ "\n" ++ b) := by
  refine ⟨parse_newline unit, parse_intercalate unit, fun line => parse_of_notMem unit,
    fun a b => ⟨?_, parse_return unit a⟩, fun line hline hgarbage a b => ?_⟩
  · have hreturn : "\r\n" = "\r" ++ "\n" := rfl
    rw [hreturn, ← String.append_assoc, parse_newline, parse_newline, parse_return]
  · have hnothing : parse unit line = [] := by
      rw [parse_of_notMem unit hline, diagnostic?_of_garbage unit hgarbage]
      rfl
    rw [parse_newline, parse_newline, parse_newline, hnothing, List.append_nil]

/-- Between a note and a tally stands a line that was cut off. -/
theorem parse_lines_cutOff :
    parse "Foo" ("[\"m\",null,\"note\",[],null]\r" ++ "\n" ++ "[\"m\",null" ++ "\n" ++
        "[\"aborting due to\",null,\"error\",[],null]") =
      [⟨.note, some "Foo", none, none, none, "m"⟩] := by
  obtain ⟨hnewline, -, -, -, hgarbage⟩ := parse_lines "Foo"
  have hcut : message? "[\"m\",null".toList = none := by decide +kernel
  have hnote : parse "Foo" "[\"m\",null,\"note\",[],null]\r" =
      [⟨.note, some "Foo", none, none, none, "m"⟩] := by decide +kernel
  have htally : parse "Foo" "[\"aborting due to\",null,\"error\",[],null]" = [] := by
    decide +kernel
  rw [hgarbage _ (by decide +kernel) (.inr hcut), hnewline, hnote, htally, List.append_nil]

end CompilerOutput
end LiveBuild
