/-
# Quoted texts

A text between double quotes, as it is shown to a developer: the quote, the
backslash and the usual control characters are written as two characters, every
other character that is not printed as `\u{…}` with its code point in hexadecimal.
-/

import LiveBuild.Text.Unprinted

namespace LiveBuild
namespace Text

/-- A character as it stands between quotes. -/
def quotedChar (c : Char) : List Char :=
  if c = '\x00' then ['\\', '0']
  else if c = '\t' then ['\\', 't']
  else if c = '\r' then ['\\', 'r']
  else if c = '\n' then ['\\', 'n']
  else if c = '"' ∨ c = '\\' then ['\\', c]
  else if isUnprinted c then "\\u\x7b".toList ++ Nat.toDigits 16 c.toNat ++ ['\x7d']
  else [c]

/-- A text between quotes. -/
def quoted (s : String) : String :=
  String.ofList ('"' :: s.toList.flatMap quotedChar ++ ['"'])

end Text
end LiveBuild
