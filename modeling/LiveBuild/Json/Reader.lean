/-
# Reading JSON

A strict reader of RFC 8259.  Every reader below takes the characters that are
left and answers what it read together with what is left behind it, or nothing
if the text does not go on as the grammar asks.

| rule | reader |
| --- | --- |
| `ws` | `skipBlank` |
| `int frac exp` | `integer?`, `fraction?`, `exponent?`, `number?` |
| `%x22 *char %x22` | `units?` |
| `value`, `*( , value ) ]`, `*( , member ) }` | `value?`, `items?`, `members?` |
| `ws value ws` | `Json.parse?` |

The readers of values call each other; `fuel` bounds the depth of these calls,
and a text of `n` characters never needs more than `n + 1`.
-/

import LiveBuild.Json.Value
import LiveBuild.Text.Affix

namespace LiveBuild
namespace Json

/-- The four characters that may stand between tokens. -/
def isBlank (c : Char) : Bool := c == ' ' || c == '\t' || c == '\r' || c == '\n'

/-- The text behind the blanks at its beginning. -/
def skipBlank (s : List Char) : List Char := s.dropWhile isBlank

/-- The part of a number before the point: one zero, or digits that begin with another one. -/
def integer? : List Char → Option (List Char × List Char)
  | [] => none
  | c :: s =>
    if c = '0' then some (['0'], s)
    else if c.isDigit then some (c :: s.takeWhile Char.isDigit, s.dropWhile Char.isDigit)
    else none

/-- One digit or more. -/
def digits? (s : List Char) : Option (List Char × List Char) :=
  match s.takeWhile Char.isDigit with
  | [] => none
  | ds => some (ds, s.dropWhile Char.isDigit)

/-- A point and digits, or nothing. -/
def fraction? : List Char → Option (List Char × List Char)
  | '.' :: s => (digits? s).map fun (ds, rest) => ('.' :: ds, rest)
  | s => some ([], s)

/-- The sign of an exponent, or nothing. -/
def sign : List Char → List Char × List Char
  | '+' :: s => (['+'], s)
  | '-' :: s => (['-'], s)
  | s => ([], s)

/-- The letter of an exponent with its sign and digits, or nothing. -/
def exponent? : List Char → Option (List Char × List Char)
  | [] => some ([], [])
  | c :: s =>
    if c = 'e' ∨ c = 'E' then
      let (sgn, rest) := sign s
      (digits? rest).map fun (ds, rest) => (c :: sgn ++ ds, rest)
    else some ([], c :: s)

/-- A number without its sign. -/
def unsigned? (s : List Char) : Option (List Char × List Char) := do
  let (i, s) ← integer? s
  let (f, s) ← fraction? s
  let (e, s) ← exponent? s
  return (i ++ f ++ e, s)

/-- A number's literal. -/
def number? : List Char → Option (List Char × List Char)
  | '-' :: s => (unsigned? s).map fun (n, rest) => ('-' :: n, rest)
  | s => unsigned? s

/-- The value of a hexadecimal digit of either case. -/
def hexDigit? (c : Char) : Option Nat :=
  if '0' ≤ c ∧ c ≤ '9' then some (c.toNat - '0'.toNat)
  else if 'a' ≤ c ∧ c ≤ 'f' then some (c.toNat - 'a'.toNat + 10)
  else if 'A' ≤ c ∧ c ≤ 'F' then some (c.toNat - 'A'.toNat + 10)
  else none

/-- The value of four hexadecimal digits. -/
def hex4? : List Char → Option (Nat × List Char)
  | a :: b :: c :: d :: rest => do
    let a ← hexDigit? a
    let b ← hexDigit? b
    let c ← hexDigit? c
    let d ← hexDigit? d
    return (((a * 16 + b) * 16 + c) * 16 + d, rest)
  | _ => none

/-- Whether a code is the first half of a surrogate pair. -/
def isHigh (code : Nat) : Bool := 0xD800 ≤ code && code ≤ 0xDBFF

/-- Whether a code is the second half of a surrogate pair. -/
def isLow (code : Nat) : Bool := 0xDC00 ≤ code && code ≤ 0xDFFF

/-- The unit of a code that has no partner. -/
def StringUnit.ofCode (code : Nat) : StringUnit :=
  if isHigh code || isLow code then .lone code else .character (Char.ofNat code)

/-- The second half of a pair, if an escape with one comes next. -/
def low? : List Char → Option (Nat × List Char)
  | '\\' :: 'u' :: s =>
    match hex4? s with
    | some (code, rest) => if isLow code then some (code, rest) else none
    | none => none
  | _ => none

/-- What the characters behind `\u` denote: a pair takes the following escape as well. -/
def codeEscape? (s : List Char) : Option (StringUnit × List Char) := do
  let (code, rest) ← hex4? s
  if isHigh code then
    match low? rest with
    | some (low, rest) =>
      return (.character (Char.ofNat (0x10000 + (code - 0xD800) * 0x400 + (low - 0xDC00))), rest)
    | none => return (.lone code, rest)
  else return (StringUnit.ofCode code, rest)

/-- What a one-letter escape denotes. -/
def shortEscape? (c : Char) : Option Char :=
  match c with
  | '"' => some '"'
  | '\\' => some '\\'
  | '/' => some '/'
  | 'b' => some '\x08'
  | 'f' => some '\x0c'
  | 'n' => some '\n'
  | 'r' => some '\r'
  | 't' => some '\t'
  | _ => none

/-- What the characters behind a backslash denote. -/
def escape? : List Char → Option (StringUnit × List Char)
  | [] => none
  | 'u' :: s => codeEscape? s
  | c :: s => (shortEscape? c).map fun d => (.character d, s)

/-- The units of a string up to its closing quote, which is read as well. -/
def units? : (fuel : Nat) → List Char → Option (List StringUnit × List Char)
  | 0, _ => none
  | _ + 1, [] => none
  | fuel + 1, c :: s =>
    if c = '"' then some ([], s)
    else if c = '\\' then do
      let (u, s) ← escape? s
      let (us, s) ← units? fuel s
      return (u :: us, s)
    else if c.toNat < 0x20 then none
    else do
      let (us, s) ← units? fuel s
      return (.character c :: us, s)

mutual

/-- A value that begins at the first character. -/
def value? : (fuel : Nat) → List Char → Option (Json × List Char)
  | 0, _ => none
  | _ + 1, [] => none
  | fuel + 1, c :: s =>
    if c = '"' then (units? fuel s).map fun (us, rest) => (.string us, rest)
    else if c = '[' then
      match skipBlank s with
      | ']' :: rest => some (.array [], rest)
      | s => (items? fuel s).map fun (vs, rest) => (.array vs, rest)
    else if c = '\x7b' then
      match skipBlank s with
      | '\x7d' :: rest => some (.object [], rest)
      | s => (members? fuel s).map fun (ms, rest) => (.object ms, rest)
    else if c = 'n' then (Text.dropPrefix? ['u', 'l', 'l'] s).map fun rest => (.null, rest)
    else if c = 't' then (Text.dropPrefix? ['r', 'u', 'e'] s).map fun rest => (.bool true, rest)
    else if c = 'f' then
      (Text.dropPrefix? ['a', 'l', 's', 'e'] s).map fun rest => (.bool false, rest)
    else (number? (c :: s)).map fun (n, rest) => (.number n, rest)

/-- The items of an array from its first one to the closing bracket. -/
def items? : (fuel : Nat) → List Char → Option (List Json × List Char)
  | 0, _ => none
  | fuel + 1, s => do
    let (v, s) ← value? fuel s
    match skipBlank s with
    | ']' :: rest => return ([v], rest)
    | ',' :: s =>
      let (vs, s) ← items? fuel (skipBlank s)
      return (v :: vs, s)
    | _ => none

/-- The members of an object from its first one to the closing brace. -/
def members? : (fuel : Nat) → List Char → Option (List (List StringUnit × Json) × List Char)
  | 0, _ => none
  | _ + 1, [] => none
  | fuel + 1, c :: s =>
    if c = '"' then do
      let (name, s) ← units? fuel s
      match skipBlank s with
      | ':' :: s =>
        let (v, s) ← value? fuel (skipBlank s)
        match skipBlank s with
        | '\x7d' :: rest => return ([(name, v)], rest)
        | ',' :: s =>
          let (ms, s) ← members? fuel (skipBlank s)
          return ((name, v) :: ms, s)
        | _ => none
      | _ => none
    else none

end

/-- The value that a whole text denotes: blanks may stand around it, nothing else. -/
def parse? (s : List Char) : Option Json :=
  match value? (s.length + 1) (skipBlank s) with
  | some (v, rest) => if skipBlank rest = [] then some v else none
  | none => none

end Json
end LiveBuild
