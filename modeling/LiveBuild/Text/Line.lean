/-
# Lines of a text

A line ends at a line feed; a carriage return directly before that line feed
belongs to the line's end.  Text after the last line feed is a line of its own,
kept as it is, and no text there is no line.

| text | lines |
| --- | --- |
| `a⏎b` | `a`, `b` |
| `a⏎b⏎` | `a`, `b` |
| `a␍⏎b␍` | `a`, `b␍` |
-/

import LiveBuild.Text.Affix

namespace LiveBuild
namespace Text

/-- A line's text without the carriage return that its end brought along. -/
def withoutReturn (line : List Char) : List Char :=
  (dropSuffix? ['\r'] line).getD line

/-- The lines among the pieces between line feeds: the last piece was not ended. -/
def linesOfPieces : List (List Char) → List (List Char)
  | [] => []
  | [[]] => []
  | [p] => [p]
  | p :: q :: ps => withoutReturn p :: linesOfPieces (q :: ps)

/-- The lines of a text. -/
def lines (s : List Char) : List (List Char) := linesOfPieces (pieces '\n' s)

end Text
end LiveBuild
