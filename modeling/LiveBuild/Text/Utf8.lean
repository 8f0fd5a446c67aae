/-
# UTF-8

A byte sequence is read from its first byte on.  The first byte of a character
says how many bytes follow it and between which bounds the next one lies; every
later one lies between `80` and `BF`:

| first byte | following | next byte |
| --- | ---: | --- |
| `00`–`7F` | 0 | |
| `C2`–`DF` | 1 | `80`–`BF` |
| `E0` | 2 | `A0`–`BF` |
| `E1`–`EC`, `EE`, `EF` | 2 | `80`–`BF` |
| `ED` | 2 | `80`–`9F` |
| `F0` | 3 | `90`–`BF` |
| `F1`–`F3` | 3 | `80`–`BF` |
| `F4` | 3 | `80`–`8F` |

Where a byte is out of its bounds, what was read of the character so far (at
least its first byte) is one invalid piece and reading goes on at that byte;
where the bytes end too early, the rest is one incomplete piece.

`scan` cuts a sequence into such pieces.  `decode` accepts a sequence without
faulty pieces, and otherwise names the first fault and where it begins;
`decodeLossy` puts one replacement character in place of each faulty piece.
-/

namespace LiveBuild

/-- A sequence of bytes. -/
abbrev Bytes := List UInt8

namespace Text
namespace Utf8

/-- What the first byte of a character says: how many bytes follow, the bounds of
the next one, and the bits of the character that the first byte holds. -/
structure Lead where
  following : Nat
  low : Nat
  high : Nat
  bits : Nat

/-- The table of first bytes. -/
def lead? (b : Nat) : Option Lead :=
  if b ≤ 0x7F then some ⟨0, 0, 0, b⟩
  else if 0xC2 ≤ b ∧ b ≤ 0xDF then some ⟨1, 0x80, 0xBF, b - 0xC0⟩
  else if b = 0xE0 then some ⟨2, 0xA0, 0xBF, 0⟩
  else if b = 0xED then some ⟨2, 0x80, 0x9F, 0x0D⟩
  else if 0xE1 ≤ b ∧ b ≤ 0xEF then some ⟨2, 0x80, 0xBF, b - 0xE0⟩
  else if b = 0xF0 then some ⟨3, 0x90, 0xBF, 0⟩
  else if 0xF1 ≤ b ∧ b ≤ 0xF3 then some ⟨3, 0x80, 0xBF, b - 0xF0⟩
  else if b = 0xF4 then some ⟨3, 0x80, 0x8F, 4⟩
  else none

/-- One step of reading. -/
inductive Step where
  /-- A whole character, and the bytes behind it. -/
  | character (c : Char) (rest : Bytes)
  /-- So many bytes that no character begins with, and the bytes behind them. -/
  | invalid (length : Nat) (rest : Bytes)
  /-- The bytes end within a character. -/
  | incomplete

/-- Reads the bytes that follow a first byte: `owed` are missing, the next one lies
between `low` and `high`, `bits` and `taken` are what was read so far. -/
def tails : (owed low high bits taken : Nat) → Bytes → Step
  | 0, _, _, bits, _, rest => .character (Char.ofNat bits) rest
  | _ + 1, _, _, _, _, [] => .incomplete
  | owed + 1, low, high, bits, taken, b :: rest =>
    if low ≤ b.toNat ∧ b.toNat ≤ high then
      tails owed 0x80 0xBF (bits * 64 + b.toNat % 64) (taken + 1) rest
    else .invalid taken (b :: rest)

/-- Reads one character, or finds out that there is none. -/
def step (b : UInt8) (rest : Bytes) : Step :=
  match lead? b.toNat with
  | none => .invalid 1 rest
  | some l => tails l.following l.low l.high l.bits 1 rest

/-- How many bytes a step leaves. -/
def Step.remaining : Step → Nat
  | .character _ rest => rest.length
  | .invalid _ rest => rest.length
  | .incomplete => 0

/-- Reading the bytes behind a first one leaves no more than there were. -/
theorem remaining_tails_le (owed low high bits taken : Nat) (s : Bytes) :
    (tails owed low high bits taken s).remaining ≤ s.length := by
  induction owed generalizing low high bits taken s with
  | zero => simp [tails, Step.remaining]
  | succ n ih =>
    cases s with
    | nil => simp [tails, Step.remaining]
    | cons b s =>
      unfold tails
      split
      · exact Nat.le_succ_of_le (ih _ _ _ _ _)
      · simp [Step.remaining]

/-- Reading a character leaves no more bytes than stood behind its first one. -/
theorem remaining_step_le (b : UInt8) (s : Bytes) : (step b s).remaining ≤ s.length := by
  unfold step
  split
  · simp [Step.remaining]
  · exact remaining_tails_le ..

/-- A piece of a byte sequence. -/
inductive Piece where
  | character (c : Char)
  | invalid (length : Nat)
  | incomplete

/-- The pieces of a byte sequence, in order. -/
def scan : Bytes → List Piece
  | [] => []
  | b :: s =>
    match _h : step b s with
    | .character c rest => .character c :: scan rest
    | .invalid n rest => .invalid n :: scan rest
    | .incomplete => [.incomplete]
termination_by s => s.length
decreasing_by
  all_goals
    have hle := remaining_step_le b s
    rw [_h] at hle
    exact Nat.lt_succ_of_le hle

/-- Why a byte sequence is not UTF-8, and where the fault begins. -/
inductive Fault where
  | invalid (length index : Nat)
  | incomplete (index : Nat)
  deriving DecidableEq, Repr

/-- The fault in words. -/
def Fault.message : Fault → String
  | .invalid n i => s!"invalid utf-8 sequence of {n} bytes from index {i}"
  | .incomplete i => s!"incomplete utf-8 byte sequence from index {i}"

/-- The characters of pieces that begin at `index`, or the first fault. -/
def characters : (index : Nat) → List Piece → Except Fault (List Char)
  | _, [] => .ok []
  | index, .character c :: ps =>
    match characters (index + c.utf8Size) ps with
    | .ok cs => .ok (c :: cs)
    | .error f => .error f
  | index, .invalid n :: _ => .error (.invalid n index)
  | index, .incomplete :: _ => .error (.incomplete index)

/-- The text that a byte sequence encodes, or the first fault in it. -/
def decode (s : Bytes) : Except Fault String := (characters 0 (scan s)).map String.ofList

/-- The character that stands for a faulty piece. -/
def replacement : Char := '\uFFFD'

/-- The text of a byte sequence, each faulty piece replaced. -/
def decodeLossy (s : Bytes) : String :=
  String.ofList ((scan s).map fun
    | .character c => c
    | _ => replacement)

/-- The bytes of a text. -/
def encode (s : String) : Bytes := s.toList.flatMap String.utf8EncodeChar

end Utf8
end Text
end LiveBuild
