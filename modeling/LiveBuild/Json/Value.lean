/-
# JSON values

The values that a JSON text (RFC 8259) denotes.  Three things are kept as they
were written, because a reader that skips a value must not judge it:

* a number is its literal, digits and sign and all;
* a string is a list of units, and a unit is a character or half of a surrogate
  pair that the text wrote with an escape but never completed;
* an object is the list of its members, in order, with repeated names.

`Text` of a string exists only if no half pair is in it (`characters?`).
-/

namespace LiveBuild
namespace Json

/-- One unit of a string: a character, or a surrogate without its partner. -/
inductive StringUnit where
  | character (c : Char)
  | lone (code : Nat)
  deriving DecidableEq, Repr

end Json

/-- A JSON value. -/
inductive Json where
  | null
  | bool (b : Bool)
  | number (literal : List Char)
  | string (units : List Json.StringUnit)
  | array (items : List Json)
  | object (members : List (List Json.StringUnit × Json))

namespace Json

/-- The character of a unit that is one. -/
def StringUnit.character? : StringUnit → Option Char
  | .character c => some c
  | .lone _ => none

/-- The text that units spell, if none of them is half a pair. -/
def characters? : List StringUnit → Option (List Char)
  | [] => some []
  | u :: us => do
    let c ← u.character?
    let cs ← characters? us
    return c :: cs

/-- The text of a string value. -/
def text? : Json → Option String
  | .string units => (characters? units).map String.ofList
  | _ => none

/-- The truth value of a literal. -/
def bool? : Json → Option Bool
  | .bool b => some b
  | _ => none

/-- The value of a run of decimal digits. -/
def digitsValue (ds : List Char) : Nat := ds.foldl (fun n d => n * 10 + (d.toNat - '0'.toNat)) 0

/-- A whole number below `bound`, written in plain digits: no sign, fraction or
exponent. -/
def natBelow? (bound : Nat) : Json → Option Nat
  | .number literal =>
    if literal.all Char.isDigit ∧ digitsValue literal < bound then some (digitsValue literal)
    else none
  | _ => none

end Json
end LiveBuild
