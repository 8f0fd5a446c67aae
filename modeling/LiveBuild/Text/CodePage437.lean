/-
# Code page 437

A character set of one byte for each character.  The lower half is ASCII, the upper
half a table of its own.
-/

import LiveBuild.Text.Utf8

namespace LiveBuild
namespace Text
namespace CodePage437

/-- The characters from `80` on. -/
def upperHalf : List Char :=
  [ 'Ç', 'ü', 'é', 'â', 'ä', 'à', 'å', 'ç', 'ê', 'ë', 'è', 'ï', 'î', 'ì', 'Ä', 'Å',
    'É', 'æ', 'Æ', 'ô', 'ö', 'ò', 'û', 'ù', 'ÿ', 'Ö', 'Ü', '¢', '£', '¥', '₧', 'ƒ',
    'á', 'í', 'ó', 'ú', 'ñ', 'Ñ', 'ª', 'º', '¿', '⌐', '¬', '½', '¼', '¡', '«', '»',
    '░', '▒', '▓', '│', '┤', '╡', '╢', '╖', '╕', '╣', '║', '╗', '╝', '╜', '╛', '┐',
    '└', '┴', '┬', '├', '─', '┼', '╞', '╟', '╚', '╔', '╩', '╦', '╠', '═', '╬', '╧',
    '╨', '╤', '╥', '╙', '╘', '╒', '╓', '╫', '╪', '┘', '┌', '█', '▄', '▌', '▐', '▀',
    'α', 'ß', 'Γ', 'π', 'Σ', 'σ', 'µ', 'τ', 'Φ', 'Θ', 'Ω', 'δ', '∞', 'φ', 'ε', '∩',
    '≡', '±', '≥', '≤', '⌠', '⌡', '÷', '≈', '°', '∙', '·', '√', 'ⁿ', '²', '■', '\u00a0' ]

example : upperHalf.length = 128 := rfl

/-- The character of a byte. -/
def character (b : UInt8) : Char :=
  if b < 0x80 then Char.ofNat b.toNat else (upperHalf[b.toNat - 0x80]?).getD ' '

/-- The text of a byte sequence. -/
def decode (s : Bytes) : String := String.ofList (s.map character)

end CodePage437
end Text
end LiveBuild
