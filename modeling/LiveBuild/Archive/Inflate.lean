/-
# Inflating

Reads the DEFLATE format.  A stream is a sequence of bits, the least significant
bit of each byte first, and holds blocks up to one that is marked as the last:

| type | block |
| ---: | --- |
| 0 | bytes as they are, from the next byte boundary on |
| 1 | symbols in the fixed codes |
| 2 | symbols in codes that the block itself describes |

A symbol below 256 is a byte, 256 ends the block, and a greater one is the length
of a stretch that is copied from further up in the output; a symbol of the
distance code says from where.  What lies before the beginning of the output is zero.

Codes are canonical: the lengths of the code words determine them (`Code.ofLengths?`).
A code leaves no sequence of bits without a meaning, with two exceptions: it may have no
code word, or a single one of one bit.

A stream is at fault in one of two ways (`Fault`): it ends too early, or it says
something that is not allowed.  Of two faults the one met first counts.

The loops are bounded by the number of bits that are left, since each turn takes
at least one.
-/

import LiveBuild.Text.Utf8

namespace LiveBuild
namespace Inflate

/-- Why bytes are no stream. -/
inductive Fault where
  /-- They end within it. -/
  | incomplete
  /-- They say something that is not allowed. -/
  | corrupt
  deriving DecidableEq, Repr

/-- A sequence of bits. -/
abbrev Bits := List Bool

/-- The bits of a byte, least significant first. -/
def bitsOfByte (b : UInt8) : Bits := (List.range 8).map b.toNat.testBit

/-- The bits of a byte sequence. -/
def bitsOf (s : Bytes) : Bits := s.flatMap bitsOfByte

/-- What reads on in the bits that are left. -/
abbrev Reader := StateT Bits (Except Fault)

/-- The next bit. -/
def bit : Reader Bool
  | [] => .error .incomplete
  | b :: s => .ok (b, s)

/-- A number of so many bits, least significant first. -/
def number : (width : Nat) → Reader Nat
  | 0 => return 0
  | width + 1 => do
    let b ← bit
    return b.toNat + 2 * (← number width)

/-- Leaves out the bits before the next byte boundary. -/
def align : Reader Unit := modify fun s => s.drop (s.length % 8)

/-- A canonical code. -/
inductive Code where
  /-- No symbol has a code word. -/
  | empty
  /-- One symbol has a code word, which is a zero. -/
  | lone (symbol : Nat)
  /-- How many code words there are of each length from one on, and the symbols in the order
  of their code words. -/
  | full (counts : List Nat) (symbols : Array Nat)
  deriving DecidableEq, Repr

namespace Code

/-- No code word is longer. -/
def maxLength : Nat := 15

/-- The code in which symbol `i` has a code word of the `i`th length, or none for zero. -/
def canonical (lengths : List Nat) : Code :=
  .full ((List.range maxLength).map fun l => lengths.count (l + 1))
    ((List.range maxLength).flatMap fun l =>
      (lengths.zipIdx.filter fun p => p.1 = l + 1).map Prod.snd).toArray

/-- How many of the longest code words begin with a code word of one of these lengths. -/
def covered (lengths : List Nat) : Nat :=
  lengths.foldr (fun l n => (1 <<< (maxLength - l)) + n) 0

/-- The code that lengths determine.  Its words cover every sequence of bits once, unless
there is no word, or one of a single bit. -/
def ofLengths? (lengths : List Nat) : Option Code :=
  match lengths.zipIdx.filter fun p => p.1 ≠ 0 with
  | [] => some .empty
  | [(1, symbol)] => some (.lone symbol)
  | used =>
    if covered (used.map Prod.fst) = 1 <<< maxLength then some (canonical lengths) else none

/-- Whether every sequence of bits has a meaning. -/
def isFull : Code → Bool
  | .full _ _ => true
  | _ => false

/-- Reads on in a code word: `word` is the number read so far, `first` the least code word
of the next length less one bit, and `index` how many symbols have shorter words. -/
def fullSymbol (symbols : Array Nat) : (counts : List Nat) → (word first index : Nat) → Reader Nat
  | [], _, _, _ => throw .corrupt
  | count :: counts, word, first, index => do
    let word := 2 * word + (← bit).toNat
    let first := 2 * first
    if word < first + count then
      match symbols[index + (word - first)]? with
      | some symbol => return symbol
      | none => throw .corrupt
    else fullSymbol symbols counts word (first + count) (index + count)

/-- The next symbol. -/
def symbol : Code → Reader Nat
  | .empty => do
    let _ ← bit
    throw .corrupt
  | .lone symbol => do
    if ← bit then throw .corrupt else return symbol
  | .full counts symbols => fullSymbol symbols counts 0 0 0

/-- The fixed code of bytes and lengths. -/
def fixedLiteral : Code :=
  canonical (List.replicate 144 8 ++ List.replicate 112 9 ++ List.replicate 24 7 ++
    List.replicate 8 8)

/-- The fixed code of distances. -/
def fixedDistance : Code := canonical (List.replicate 32 5)

end Code

/-- The least length of each length symbol, and how many bits are added to it. -/
def lengthTable : Array (Nat × Nat) :=
  #[(3, 0), (4, 0), (5, 0), (6, 0), (7, 0), (8, 0), (9, 0), (10, 0), (11, 1), (13, 1), (15, 1),
    (17, 1), (19, 2), (23, 2), (27, 2), (31, 2), (35, 3), (43, 3), (51, 3), (59, 3), (67, 4),
    (83, 4), (99, 4), (115, 4), (131, 5), (163, 5), (195, 5), (227, 5), (258, 0)]

/-- The least distance of each distance symbol, and how many bits are added to it. -/
def distanceTable : Array (Nat × Nat) :=
  #[(1, 0), (2, 0), (3, 0), (4, 0), (5, 1), (7, 1), (9, 2), (13, 2), (17, 3), (25, 3), (33, 4),
    (49, 4), (65, 5), (97, 5), (129, 6), (193, 6), (257, 7), (385, 7), (513, 8), (769, 8),
    (1025, 9), (1537, 9), (2049, 10), (3073, 10), (4097, 11), (6145, 11), (8193, 12),
    (12289, 12), (16385, 13), (24577, 13)]

/-- The order in which a block gives the lengths of the code for code lengths. -/
def lengthOrder : List Nat := [16, 17, 18, 0, 8, 7, 9, 6, 10, 5, 11, 4, 12, 3, 13, 2, 14, 1, 15]

/-- The value that a symbol selects in a table, with its added bits. -/
def tableValue (table : Array (Nat × Nat)) (symbol : Nat) : Reader Nat :=
  match table[symbol]? with
  | some (base, width) => return base + (← number width)
  | none => throw .corrupt

/-- The output with `length` bytes copied, one after the other, from `distance` before its end. -/
def copy : (length distance : Nat) → Array UInt8 → Array UInt8
  | 0, _, out => out
  | n + 1, distance, out =>
    let b := if distance ≤ out.size then (out[out.size - distance]?).getD 0 else 0
    copy n distance (out.push b)

/-- The symbols of a block up to its end. -/
def symbols (literal distance : Code) : (fuel : Nat) → Array UInt8 → Reader (Array UInt8)
  | 0, _ => throw .incomplete
  | fuel + 1, out => do
    let v ← literal.symbol
    if v < 256 then symbols literal distance fuel (out.push (UInt8.ofNat v))
    else if v = 256 then return out
    else
      let length ← tableValue lengthTable (v - 257)
      let back ← tableValue distanceTable (← distance.symbol)
      symbols literal distance fuel (copy length back out)

/-- So many bytes as they are. -/
def bytes : (count : Nat) → Array UInt8 → Reader (Array UInt8)
  | 0, out => return out
  | n + 1, out => do
    let b ← number 8
    bytes n (out.push (UInt8.ofNat b))

/-- A block of bytes as they are: its length twice, the second time with all bits turned over. -/
def stored (out : Array UInt8) : Reader (Array UInt8) := do
  align
  let length ← number 16
  let turned ← number 16
  if length + turned = 0xFFFF then bytes length out else throw .corrupt

/-- So many numbers of three bits. -/
def triples : (count : Nat) → Reader (List Nat)
  | 0 => return []
  | n + 1 => do
    let v ← number 3
    return v :: (← triples n)

/-- The lengths of code words that a symbol stands for, given the length before them. -/
def repeated (last : Option Nat) (symbol : Nat) : Reader (List Nat) :=
  if symbol < 16 then return [symbol]
  else if symbol = 16 then
    match last with
    | some l => return List.replicate (3 + (← number 2)) l
    | none => throw .corrupt
  else if symbol = 17 then return List.replicate (3 + (← number 3)) 0
  else return List.replicate (11 + (← number 7)) 0

/-- The lengths of `wanted` code words, where `done` come before them. -/
def lengths (c : Code) (wanted : Nat) : (fuel : Nat) → (done : List Nat) → Reader (List Nat)
  | 0, _ => throw .incomplete
  | fuel + 1, done => do
    if done.length = wanted then return done
    else if wanted < done.length then throw .corrupt
    else
      let ls ← repeated done.getLast? (← c.symbol)
      lengths c wanted fuel (done ++ ls)

/-- The code in which a block describes its codes: up to nineteen lengths, in an order of
their own. -/
def lengthCode (count : Nat) : Reader Code := do
  let given ← triples count
  let ordered := (List.range 19).map fun i =>
    ((lengthOrder.zip given).find? fun p => p.1 = i).elim 0 Prod.snd
  match Code.ofLengths? ordered with
  | some c => if c.isFull then return c else throw .corrupt
  | none => throw .corrupt

/-- The two codes that a block describes. -/
def codes : Reader (Code × Code) := do
  let literals := (← number 5) + 257
  let distances := (← number 5) + 1
  let count := (← number 4) + 4
  if 286 < literals ∨ 30 < distances then throw .corrupt
  else
    let wanted := literals + distances
    let ls ← lengths (← lengthCode count) wanted (wanted + 1) []
    match Code.ofLengths? (ls.take literals), Code.ofLengths? (ls.drop literals) with
    | some literal, some distance => return (literal, distance)
    | _, _ => throw .corrupt

/-- A block of a type, behind its header. -/
def block (type : Nat) (out : Array UInt8) : Reader (Array UInt8) := do
  let fuel := (← get).length + 1
  if type = 0 then stored out
  else if type = 1 then symbols .fixedLiteral .fixedDistance fuel out
  else if type = 2 then
    let (literal, distance) ← codes
    symbols literal distance fuel out
  else throw .corrupt

/-- The blocks up to the last one. -/
def blocks : (fuel : Nat) → Array UInt8 → Reader (Array UInt8)
  | 0, _ => throw .incomplete
  | fuel + 1, out => do
    let header ← number 3
    let out ← block (header / 2) out
    if header % 2 = 1 then return out else blocks fuel out

end Inflate

/-- The bytes that a DEFLATE stream stands for. -/
def inflate (s : Bytes) : Except Inflate.Fault Bytes :=
  let bits := Inflate.bitsOf s
  ((Inflate.blocks (bits.length + 1) #[]).run bits).map fun r => r.1.toList

end LiveBuild
