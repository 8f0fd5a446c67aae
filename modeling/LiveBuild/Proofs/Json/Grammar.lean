/-
# The grammar of JSON

RFC 8259 as relations between values and the texts that spell them.  Nothing here refers to a
reader.

| rule | relation |
| --- | --- |
| `ws` | `Blanks` |
| `int`, `frac`, `exp`, `number` | `IsInteger`, `IsFraction`, `IsExponent`, `IsNumber` |
| `4HEXDIG` | `Hex4` |
| `*char` | `SpellsUnits` |
| `value` | `Spells` |
| `value *( value-separator value )` | `SpellsItems` |
| `member *( value-separator member )` | `SpellsMembers` |

The blanks that the grammar allows on both sides of a structural character stand here on both
sides of a value and of a name.  Two escapes spell one character if the first is the first half
of a surrogate pair and the second its second half, so a first half is alone only if no second
half is spelled behind it.
-/

import LiveBuild.Json.Value

namespace LiveBuild
namespace Json

/-- Blanks between tokens. -/
def Blanks (w : List Char) : Prop := ∀ c ∈ w, c = ' ' ∨ c = '\t' ∨ c = '\r' ∨ c = '\n'

/-! ### Numbers -/

/-- One digit or more. -/
def IsDigits (ds : List Char) : Prop := ds ≠ [] ∧ ∀ d ∈ ds, d.isDigit = true

/-- One zero, or digits that begin with another one. -/
inductive IsInteger : List Char → Prop
  | zero : IsInteger ['0']
  | digits {d : Char} {ds : List Char} (hd : d.isDigit = true) (hne : d ≠ '0')
      (hds : ∀ c ∈ ds, c.isDigit = true) : IsInteger (d :: ds)

/-- A point and digits, or nothing. -/
inductive IsFraction : List Char → Prop
  | none : IsFraction []
  | point {ds : List Char} (hds : IsDigits ds) : IsFraction ('.' :: ds)

/-- A letter, a sign or none, and digits, or nothing. -/
inductive IsExponent : List Char → Prop
  | none : IsExponent []
  | letter {c : Char} {sgn ds : List Char} (hc : c = 'e' ∨ c = 'E')
      (hsgn : sgn = [] ∨ sgn = ['+'] ∨ sgn = ['-']) (hds : IsDigits ds) :
      IsExponent (c :: sgn ++ ds)

/-- A number's literal. -/
inductive IsNumber : List Char → Prop
  | mk {sgn i f e : List Char} (hsgn : sgn = [] ∨ sgn = ['-']) (hi : IsInteger i)
      (hf : IsFraction f) (he : IsExponent e) : IsNumber (sgn ++ (i ++ (f ++ e)))

/-! ### Strings -/

/-- The hexadecimal digits and their values. -/
def hexDigits : List (Char × Nat) :=
  [('0', 0), ('1', 1), ('2', 2), ('3', 3), ('4', 4), ('5', 5), ('6', 6), ('7', 7), ('8', 8),
    ('9', 9), ('a', 10), ('b', 11), ('c', 12), ('d', 13), ('e', 14), ('f', 15), ('A', 10),
    ('B', 11), ('C', 12), ('D', 13), ('E', 14), ('F', 15)]

/-- Four hexadecimal digits and the number that they are. -/
inductive Hex4 : List Char → Nat → Prop
  | mk {a b c d : Char} {w x y z : Nat} (ha : (a, w) ∈ hexDigits) (hb : (b, x) ∈ hexDigits)
      (hc : (c, y) ∈ hexDigits) (hd : (d, z) ∈ hexDigits) :
      Hex4 [a, b, c, d] (w * 0x1000 + x * 0x100 + y * 0x10 + z)

/-- The letters of short escapes and the characters that they stand for. -/
def shortEscapes : List (Char × Char) :=
  [('"', '"'), ('\\', '\\'), ('/', '/'), ('b', '\x08'), ('f', '\x0c'), ('n', '\n'), ('r', '\r'),
    ('t', '\t')]

/-- The codes of first halves of surrogate pairs. -/
def FirstHalf (n : Nat) : Prop := 0xD800 ≤ n ∧ n ≤ 0xDBFF

/-- The codes of second halves of surrogate pairs. -/
def SecondHalf (n : Nat) : Prop := 0xDC00 ≤ n ∧ n ≤ 0xDFFF

/-- The text begins with an escape of a second half. -/
def BeginsWithSecondHalf (t : List Char) : Prop :=
  ∃ ds n t', Hex4 ds n ∧ SecondHalf n ∧ t = '\\' :: 'u' :: (ds ++ t')

/-- What stands between the quotes of a string. -/
inductive SpellsUnits : List StringUnit → List Char → Prop
  | nil : SpellsUnits [] []
  | plain {c : Char} {us : List StringUnit} {t : List Char} (hc : 0x20 ≤ c.toNat)
      (hquote : c ≠ '"') (hslash : c ≠ '\\') (h : SpellsUnits us t) :
      SpellsUnits (.character c :: us) (c :: t)
  | short {e c : Char} {us : List StringUnit} {t : List Char} (he : (e, c) ∈ shortEscapes)
      (h : SpellsUnits us t) : SpellsUnits (.character c :: us) ('\\' :: e :: t)
  | code {ds : List Char} {n : Nat} {us : List StringUnit} {t : List Char} (hn : Hex4 ds n)
      (hfirst : ¬ FirstHalf n) (hsecond : ¬ SecondHalf n) (h : SpellsUnits us t) :
      SpellsUnits (.character (Char.ofNat n) :: us) ('\\' :: 'u' :: (ds ++ t))
  | pair {ds ds' : List Char} {n n' : Nat} {us : List StringUnit} {t : List Char}
      (hn : Hex4 ds n) (hfirst : FirstHalf n) (hn' : Hex4 ds' n') (hsecond : SecondHalf n')
      (h : SpellsUnits us t) :
      SpellsUnits (.character (Char.ofNat (0x10000 + (n - 0xD800) * 0x400 + (n' - 0xDC00))) :: us)
        ('\\' :: 'u' :: (ds ++ '\\' :: 'u' :: (ds' ++ t)))
  | loneFirst {ds : List Char} {n : Nat} {us : List StringUnit} {t : List Char} (hn : Hex4 ds n)
      (hfirst : FirstHalf n) (halone : ¬ BeginsWithSecondHalf t) (h : SpellsUnits us t) :
      SpellsUnits (.lone n :: us) ('\\' :: 'u' :: (ds ++ t))
  | loneSecond {ds : List Char} {n : Nat} {us : List StringUnit} {t : List Char} (hn : Hex4 ds n)
      (hsecond : SecondHalf n) (h : SpellsUnits us t) :
      SpellsUnits (.lone n :: us) ('\\' :: 'u' :: (ds ++ t))

/-! ### Values -/

mutual

/-- The text spells a value. -/
inductive Spells : Json → List Char → Prop
  | nullLiteral : Spells .null ['n', 'u', 'l', 'l']
  | trueLiteral : Spells (.bool true) ['t', 'r', 'u', 'e']
  | falseLiteral : Spells (.bool false) ['f', 'a', 'l', 's', 'e']
  | number {t : List Char} (h : IsNumber t) : Spells (.number t) t
  | string {us : List StringUnit} {t : List Char} (h : SpellsUnits us t) :
      Spells (.string us) ('"' :: (t ++ ['"']))
  | emptyArray {w : List Char} (hw : Blanks w) : Spells (.array []) ('[' :: (w ++ [']']))
  | array {vs : List Json} {t : List Char} (h : SpellsItems vs t) :
      Spells (.array vs) ('[' :: (t ++ [']']))
  | emptyObject {w : List Char} (hw : Blanks w) :
      Spells (.object []) ('\x7b' :: (w ++ ['\x7d']))
  | object {ms : List (List StringUnit × Json)} {t : List Char} (h : SpellsMembers ms t) :
      Spells (.object ms) ('\x7b' :: (t ++ ['\x7d']))

/-- The text spells one item or more, with commas between them. -/
inductive SpellsItems : List Json → List Char → Prop
  | last {v : Json} {w t w' : List Char} (hw : Blanks w) (h : Spells v t) (hw' : Blanks w') :
      SpellsItems [v] (w ++ (t ++ w'))
  | cons {v : Json} {vs : List Json} {w t w' ts : List Char} (hw : Blanks w) (h : Spells v t)
      (hw' : Blanks w') (hs : SpellsItems vs ts) :
      SpellsItems (v :: vs) (w ++ (t ++ (w' ++ ',' :: ts)))

/-- The text spells one member or more, with commas between them. -/
inductive SpellsMembers : List (List StringUnit × Json) → List Char → Prop
  | last {us : List StringUnit} {v : Json} {w n w₁ w₂ t w' : List Char} (hw : Blanks w)
      (hn : SpellsUnits us n) (hw₁ : Blanks w₁) (hw₂ : Blanks w₂) (h : Spells v t)
      (hw' : Blanks w') :
      SpellsMembers [(us, v)] (w ++ '"' :: (n ++ '"' :: (w₁ ++ ':' :: (w₂ ++ (t ++ w')))))
  | cons {us : List StringUnit} {v : Json} {ms : List (List StringUnit × Json)}
      {w n w₁ w₂ t w' ts : List Char} (hw : Blanks w) (hn : SpellsUnits us n) (hw₁ : Blanks w₁)
      (hw₂ : Blanks w₂) (h : Spells v t) (hw' : Blanks w') (hs : SpellsMembers ms ts) :
      SpellsMembers ((us, v) :: ms)
        (w ++ '"' :: (n ++ '"' :: (w₁ ++ ':' :: (w₂ ++ (t ++ (w' ++ ',' :: ts))))))

end

end Json
end LiveBuild
