/-
# Messages are decoded

A message of the compiler is a record with five members, and a value denotes it if it is an
object with these members (`Message.Denoted`):

| member | value | may be missing or null |
| --- | --- | --- |
| `message`, `level` | the text | |
| `spans` | an array of spans | |
| `code` | a record with one member `code`, the text | yes |
| `rendered` | any text | yes |

The members of a record stand in any order, and among others of whatever names and values
(`IsRecord`).  Where they stand and what the others are makes no difference (`optional?_eq`), so a
value that denotes a message is decoded as this message (`ofJson?_of_denoted`).

With that every text that spells such a value is decoded, whatever its escapes, blanks and other
members are: as nothing if the message is a closing tally, and as one diagnostic otherwise
(`parse_of_spells`).
-/

import LiveBuild.Diagnostic.CompilerOutput
import LiveBuild.Proofs.Json.Spelling
import LiveBuild.Proofs.Text.Affix
import Mathlib.Data.List.Forall2

namespace LiveBuild
namespace CompilerOutput

/-! ### What values denote -/

/-- The units of a text. -/
def unitsOf (s : String) : List Json.StringUnit := s.toList.map .character

/-- An object with the known members of a record, in any order, and others between them that are
called differently than any member of the record. -/
def IsRecord (names : List String) (known : List (String × Json)) (v : Json) : Prop :=
  ∃ ms others : List (String × Json), v = .object (ms.map fun m => (unitsOf m.1, m.2)) ∧
    ms.Perm (known ++ others) ∧ ∀ o ∈ others, o.1 ∉ names

/-- A member that may be missing or null. -/
inductive OptionalMember {α : Type} (name : String) (denotes : α → Json → Prop) :
    Option α → List (String × Json) → Prop
  | missing : OptionalMember name denotes none []
  | null : OptionalMember name denotes none [(name, .null)]
  | present {a : α} {v : Json} (h : denotes a v) : OptionalMember name denotes (some a) [(name, v)]

/-- The string of a text. -/
def DenotesText (s : String) (v : Json) : Prop := v = .string (unitsOf s)

/-- The record of a code. -/
def DenotesCode (code : String) (v : Json) : Prop :=
  ∃ c, DenotesText code c ∧ IsRecord ["code"] [("code", c)] v

/-- The decimal number of a position. -/
def DenotesPosition (n : Nat) (v : Json) : Prop :=
  n < UInt64.size ∧ v = .number (Nat.toDigits 10 n)

/-- The record of a span. -/
def Span.Denoted (s : Span) (v : Json) : Prop :=
  ∃ line column, DenotesPosition s.line line ∧ DenotesPosition s.column column ∧
    IsRecord ["line_start", "column_start", "is_primary"]
      [("line_start", line), ("column_start", column), ("is_primary", .bool s.isPrimary)] v

/-- The record of a message. -/
def Message.Denoted (m : Message) (v : Json) : Prop :=
  ∃ message level spans code rendered shown,
    DenotesText m.message message ∧ DenotesText m.level level ∧
    List.Forall₂ Span.Denoted m.spans spans ∧ OptionalMember "code" DenotesCode m.code code ∧
    OptionalMember "rendered" DenotesText shown rendered ∧
    IsRecord ["message", "code", "level", "spans", "rendered"]
      ([("message", message), ("level", level), ("spans", .array spans)] ++ code ++ rendered) v

/-- A tally with which the compiler closes. -/
def Message.Tally (m : Message) : Prop :=
  m.spans = [] ∧ ((∃ r, m.message = "aborting due to" ++ r) ∨
    (m.level = "warning" ∧ ∃ r, m.message = r ++ " emitted"))

/-! ### Records -/

variable {names : List String} {known ms others : List (String × Json)} {name : String} {v : Json}

/-- The units of a text are read as its characters. -/
theorem characters?_unitsOf (s : String) : Json.characters? (unitsOf s) = some s.toList := by
  unfold unitsOf
  induction s.toList with
  | nil => rfl
  | cons c cs ih => simp [Json.characters?, Json.StringUnit.character?, ih]

/-- Members whose names are texts are read under these names. -/
theorem named?_map (ms : List (String × Json)) :
    named? (ms.map fun m => (unitsOf m.1, m.2)) = some ms := by
  induction ms with
  | nil => rfl
  | cons m ms ih => simp [named?, characters?_unitsOf, ih]

/-- **A member is found by its name,** wherever it stands and whatever stands beside it. -/
theorem optional?_eq (hperm : ms.Perm (known ++ others)) (hothers : ∀ o ∈ others, o.1 ∉ names)
    (hname : name ∈ names) : optional? name ms = optional? name known := by
  have hnone : others.filter (fun m => m.1 = name) = [] := by
    rw [List.filter_eq_nil_iff]
    intro o ho he
    rw [decide_eq_true_eq] at he
    exact hothers o ho (he ▸ hname)
  have hfilter := hperm.filter fun m => m.1 = name
  rw [List.filter_append, hnone, List.append_nil] at hfilter
  unfold optional?
  generalize ms.filter (fun m => m.1 = name) = found at hfilter ⊢
  generalize known.filter (fun m => m.1 = name) = found' at hfilter ⊢
  rcases found' with _ | ⟨m, _ | ⟨m', rest⟩⟩
  · rw [hfilter.eq_nil]
  · rw [hfilter.eq_singleton]
  · have hlength := hfilter.length_eq
    rcases found with _ | ⟨n, _ | ⟨n', rest'⟩⟩
    · simp at hlength
    · simp at hlength
    · rfl

/-- **Among others, and in any order, a required member is found** as if the known members stood
alone. -/
theorem required?_eq (hperm : ms.Perm (known ++ others)) (hothers : ∀ o ∈ others, o.1 ∉ names)
    (hname : name ∈ names) : required? name ms = required? name known := by
  rw [required?, required?, optional?_eq hperm hothers hname]

/-- A record stays one with its members the other way round and others among them. -/
theorem isRecord_reverse (others : List (String × Json)) (hothers : ∀ o ∈ others, o.1 ∉ names) :
    IsRecord names known (.object ((known ++ others).reverse.map fun m => (unitsOf m.1, m.2))) :=
  ⟨_, others, rfl, List.reverse_perm _, hothers⟩

/-! ### Values -/

/-- The string of a text is read as this text. -/
theorem text?_of_denotes {s : String} (h : DenotesText s v) : v.text? = some s := by
  subst h
  simp [Json.text?, characters?_unitsOf]

/-- The decimal number of a position is read as this position. -/
theorem natBelow?_of_denotes {n : Nat} (h : DenotesPosition n v) :
    v.natBelow? positionBound = some n := by
  obtain ⟨hn, rfl⟩ := h
  have hdigits : (Nat.toDigits 10 n).all Char.isDigit = true :=
    List.all_eq_true.2 fun c hc => Nat.isDigit_of_mem_toDigits (by decide) (by decide) hc
  have hvalue : Json.digitsValue (Nat.toDigits 10 n) = n := by
    have hof := Nat.ofDigitChars_toDigits (b := 10) (n := n) (by decide) (by decide)
    simpa [Json.digitsValue, Nat.ofDigitChars, Nat.mul_comm] using hof
  rw [Json.natBelow?, hvalue, if_pos ⟨hdigits, hn⟩]

/-- The record of a code is decoded as this code. -/
theorem codeOfJson?_of_denotes {code : String} (h : DenotesCode code v) :
    codeOfJson? v = some code := by
  obtain ⟨c, hc, ms, others, rfl, hperm, hothers⟩ := h
  have hcode : required? "code" ms = some c := by
    rw [required?_eq hperm hothers (by simp)]
    rfl
  simp [codeOfJson?, named?_map, hcode, text?_of_denotes hc]

/-- The record of a span is decoded as this span. -/
theorem Span.ofJson?_of_denoted {span : Span} (h : span.Denoted v) : ofJson? v = some span := by
  obtain ⟨line, column, hline, hcolumn, ms, others, rfl, hperm, hothers⟩ := h
  have hmember : ∀ name ∈ ["line_start", "column_start", "is_primary"], required? name ms =
      required? name [("line_start", line), ("column_start", column),
        ("is_primary", .bool span.isPrimary)] :=
    fun name hname => required?_eq hperm hothers hname
  have hread : ofParts? line column (.bool span.isPrimary) = some span := by
    simp [ofParts?, natBelow?_of_denotes hline, natBelow?_of_denotes hcolumn, Json.bool?]
  rw [ofJson?, named?_map]
  simp only [Option.bind_eq_bind, Option.bind_some]
  rw [hmember "line_start" (by simp), hmember "column_start" (by simp),
    hmember "is_primary" (by simp)]
  exact hread

/-- An array of spans is decoded as these spans, in their order. -/
theorem Span.listOfJson?_of_denoted {spans : List Span} {vs : List Json}
    (h : List.Forall₂ Span.Denoted spans vs) : listOfJson? (.array vs) = some spans := by
  rw [listOfJson?]
  induction h with
  | nil => rfl
  | cons hspan _ ih => simp [list?, ofJson?_of_denoted hspan, ih]

/-- The string of a text is not null. -/
theorem DenotesText.ne_null {s : String} (h : DenotesText s v) : v ≠ .null := by
  rw [DenotesText] at h
  simp [h]

/-- The record of a code is not null. -/
theorem DenotesCode.ne_null {code : String} (h : DenotesCode code v) : v ≠ .null := by
  obtain ⟨c, -, ms, others, rfl, -⟩ := h
  simp

/-- A member that may be missing or null is read as nothing or as what it denotes. -/
theorem orMissing?_of_member {α : Type} {denotes : α → Json → Prop} {read : Json → Option α}
    (hnull : ∀ {a v}, denotes a v → v ≠ .null) (hread : ∀ {a v}, denotes a v → read v = some a)
    {a : Option α} {member : List (String × Json)} (h : OptionalMember name denotes a member) :
    (optional? name member).bind (orMissing? read) = some a := by
  cases h with
  | missing => rfl
  | null => simp [optional?, orMissing?, orNull?]
  | @present a v h => simp [optional?, orMissing?, orNull?, hnull h, hread h]

/-- An optional member stands there once or not at all. -/
theorem OptionalMember.eq_nil_or_singleton {α : Type} {denotes : α → Json → Prop} {a : Option α}
    {member : List (String × Json)} (h : OptionalMember name denotes a member) :
    member = [] ∨ ∃ v, member = [(name, v)] := by
  cases h with
  | missing => exact .inl rfl
  | null => exact .inr ⟨_, rfl⟩
  | present => exact .inr ⟨_, rfl⟩

/-- The members of a message are found by their names. -/
theorem members_of_message {message level spans : Json} {code rendered : List (String × Json)}
    (hcode : code = [] ∨ ∃ v, code = [("code", v)])
    (hrendered : rendered = [] ∨ ∃ v, rendered = [("rendered", v)]) :
    let ms := [("message", message), ("level", level), ("spans", spans)] ++ code ++ rendered
    optional? "message" ms = some (some message) ∧ optional? "level" ms = some (some level) ∧
      optional? "spans" ms = some (some spans) ∧ optional? "code" ms = optional? "code" code ∧
      optional? "rendered" ms = optional? "rendered" rendered := by
  rcases hcode with rfl | ⟨v, rfl⟩ <;> rcases hrendered with rfl | ⟨v', rfl⟩ <;>
    exact ⟨rfl, rfl, rfl, rfl, rfl⟩

/-- **What denotes a message is decoded as this message.** -/
theorem Message.ofJson?_of_denoted {m : Message} (h : m.Denoted v) : ofJson? v = some m := by
  obtain ⟨message, level, spans, code, rendered, shown, hmessage, hlevel, hspans, hcode, hrendered,
    ms, others, rfl, hperm, hothers⟩ := h
  have hfound : ∀ name ∈ ["message", "code", "level", "spans", "rendered"],
      optional? name ms = optional? name
        ([("message", message), ("level", level), ("spans", .array spans)] ++ code ++ rendered) :=
    fun name hname => optional?_eq hperm hothers hname
  obtain ⟨hmessage', hlevel', hspans', hcode', hrendered'⟩ :=
    members_of_message hcode.eq_nil_or_singleton hrendered.eq_nil_or_singleton
  have hcodeRead := orMissing?_of_member DenotesCode.ne_null codeOfJson?_of_denotes hcode
  have hrenderedRead := orMissing?_of_member DenotesText.ne_null text?_of_denotes hrendered
  obtain ⟨codeMember, hcodeFound, hcodeRead⟩ := Option.bind_eq_some_iff.1 hcodeRead
  obtain ⟨renderedMember, hrenderedFound, hrenderedRead⟩ := Option.bind_eq_some_iff.1 hrenderedRead
  have hread : ofParts? message codeMember level (.array spans) renderedMember = some m := by
    simp [ofParts?, text?_of_denotes hmessage, text?_of_denotes hlevel, hcodeRead, hrenderedRead,
      Span.listOfJson?_of_denoted hspans]
  rw [ofJson?, named?_map]
  simp only [Option.bind_eq_bind, Option.bind_some, required?]
  rw [hfound "message" (by simp), hfound "code" (by simp), hfound "level" (by simp),
    hfound "spans" (by simp), hfound "rendered" (by simp), hmessage', hlevel', hspans', hcode',
    hrendered', hcodeFound, hrenderedFound]
  exact hread

/-! ### Lines -/

/-- A text without a line feed is one line. -/
theorem lines_of_notMem {s : List Char} (hne : s ≠ []) (hs : '\n' ∉ s) : Text.lines s = [s] := by
  rw [Text.lines, Text.pieces_of_notMem hs]
  obtain ⟨c, s, rfl⟩ := List.exists_cons_of_ne_nil hne
  rfl

/-- The test for a closing tally is right. -/
theorem Message.isSummary_iff (m : Message) : m.isSummary = true ↔ m.Tally := by
  simp [isSummary, Tally, Text.startsWith_iff, Text.endsWith_iff]

/-- The text of an object is not blank. -/
theorem allBlank_of_spells {ms : List (List Json.StringUnit × Json)} {w t w' : List Char}
    (ht : (Json.object ms).Spells t) : Text.allBlank (w ++ (t ++ w')) = false := by
  have hbrace : '\x7b' ∈ t := by
    cases ht <;> exact List.mem_cons_self
  have hmem : '\x7b' ∈ w ++ (t ++ w') := by simp [hbrace]
  rw [Text.allBlank, List.all_eq_false]
  exact ⟨_, hmem, by decide⟩

/-- **A line that spells a message,** with whatever escapes, blanks, order of members and other
members, says nothing if the message is a closing tally, and otherwise is one diagnostic with
the severity, the text and the code of the message, placed at the first primary span, if there is
one. -/
theorem parse_of_spells (unit : String) {m : Message} {v : Json} {w t w' : List Char}
    (hm : m.Denoted v) (hw : Json.Blanks w) (ht : v.Spells t) (hw' : Json.Blanks w')
    (hline : '\n' ∉ w ++ (t ++ w')) :
    (m.Tally → parse unit (String.ofList (w ++ (t ++ w'))) = []) ∧
      (¬ m.Tally → parse unit (String.ofList (w ++ (t ++ w'))) =
        [{ severity := .ofLevel m.level
           source := some unit
           line := (m.spans.find? Span.isPrimary).map Span.line
           column := (m.spans.find? Span.isPrimary).map Span.column
           code := m.code
           message := m.message }]) := by
  have hmessage : message? (w ++ (t ++ w')) = some m := by
    rw [message?, Json.parse?_of_spells hw ht hw', Option.bind_some, Message.ofJson?_of_denoted hm]
  obtain ⟨-, -, -, -, -, -, -, -, -, -, -, ms, -, rfl, -⟩ := hm
  have hne : w ++ (t ++ w') ≠ [] := by
    obtain ⟨c, t', rfl, -⟩ := ht.exists_cons
    simp
  rw [parse, String.toList_ofList, lines_of_notMem hne hline, List.filterMap_cons,
    List.filterMap_nil, diagnostic?, allBlank_of_spells ht, hmessage, ← m.isSummary_iff]
  refine ⟨fun hsummary => by simp [hsummary], fun hsummary => ?_⟩
  simp [hsummary, Message.toDiagnostic, Message.primary?]

set_option maxRecDepth 4000 in
/-- A note with its members in the opposite order, an escape where none is needed and, inside a
member that is not looked at, a name that is no text. -/
theorem parse_of_spells_note :
    parse "Foo" ("\x7b\"x\": \x7b\"\\ud800\":[-0.5E+1]\x7d, \"code\": \x7b\"code\": \"E1\"\x7d, " ++
      "\"spans\": [\x7b\"is_primary\": true, \"column_start\": 5, \"line_start\": 3\x7d], " ++
      "\"level\": \"n\\u006fte\", \"message\": \"a\\nb\"\x7d") =
        [⟨.note, some "Foo", some 3, some 5, some "E1", "a\nb"⟩] := by
  let x : Json := .object [([.lone 0xD800], .array [.number ['-', '0', '.', '5', 'E', '+', '1']])]
  let code : Json := .object [(unitsOf "code", .string (unitsOf "E1"))]
  let span : Json := .object [(unitsOf "is_primary", .bool true),
    (unitsOf "column_start", .number ['5']), (unitsOf "line_start", .number ['3'])]
  let v : Json := .object [(unitsOf "x", x), (unitsOf "code", code),
    (unitsOf "spans", .array [span]), (unitsOf "level", .string (unitsOf "note")),
    (unitsOf "message", .string (unitsOf "a\nb"))]
  have hcode : DenotesCode "E1" code := ⟨_, rfl, isRecord_reverse [] (by decide)⟩
  have hspan : Span.Denoted ⟨3, 5, true⟩ span :=
    ⟨_, _, ⟨by decide, rfl⟩, ⟨by decide, rfl⟩, isRecord_reverse [] (by decide)⟩
  have hm : Message.Denoted ⟨"a\nb", some "E1", "note", [⟨3, 5, true⟩]⟩ v :=
    ⟨_, _, _, _, _, none, rfl, rfl, .cons hspan .nil, .present hcode, .missing,
      isRecord_reverse [("x", x)] (by decide)⟩
  have hparse : ∀ a b c, Json.parse? (a ++ b ++ c) = some v → '\n' ∉ a ++ b ++ c →
      parse "Foo" (String.ofList a ++ String.ofList b ++ String.ofList c) =
        [⟨.note, some "Foo", some 3, some 5, some "E1", "a\nb"⟩] := by
    intro a b c hread hline
    obtain ⟨w, t, w', hw, ht, hw', hs⟩ := Json.parse?_eq_some_iff.1 hread
    rw [hs] at hline
    rw [← String.ofList_append, ← String.ofList_append, hs]
    exact (parse_of_spells "Foo" hm hw ht hw' hline).2 (by simp [Message.Tally])
  refine hparse _ _ _ ?_ ?_
  · simp only [v, x, code, span, unitsOf]
    rfl
  · decide

end CompilerOutput
end LiveBuild
