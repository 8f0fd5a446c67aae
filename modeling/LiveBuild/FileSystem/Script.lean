/-
# Scripts

A file that may be run but is no program can name one that runs it.  It begins with
`#!`, and the first word of the line behind that is the path of its interpreter; what
follows on the line is one argument.

| line | interpreter | argument |
| --- | --- | --- |
| `#!/bin/x` | `/bin/x` | |
| `#! /bin/x  a b ` | `/bin/x` | `a b` |
| `#! ` | no script | |

Only the head of a file is looked at, its first `headBytes` bytes; a shorter file is
filled up with NULs.  Where no newline ends the line before a NUL, the line is all of
the head, and a word in it ends before a blank or a NUL: an interpreter that reaches to
the end of the head is none, because its path may go on.
-/

import LiveBuild.Path
import LiveBuild.Text.Utf8

namespace LiveBuild

/-- What the first line of a script says. -/
structure Script where
  interpreter : Path
  argument : Option String
  deriving DecidableEq, Repr

namespace Script

/-- How many bytes of a file are looked at. -/
def headBytes : Nat := 256

/-- Whether a byte separates words. -/
def isBlank (b : UInt8) : Bool := b == 0x20 || b == 0x09

/-- Whether a byte ends a word. -/
def endsWord (b : UInt8) : Bool := isBlank b || b == 0

/-- The first bytes of a file, with NULs behind a short one. -/
def head (content : Bytes) : Bytes := (content ++ List.replicate headBytes 0).take headBytes

/-- The bytes without the blanks around them. -/
def trim (line : Bytes) : Bytes := (line.reverse.dropWhile isBlank).reverse.dropWhile isBlank

/-- The line that begins a head, or all of the head if nothing in it ends the line but
something ends its first word. -/
def firstLine? (head : Bytes) : Option Bytes :=
  let line := head.takeWhile fun b => b != 0x0A && b != 0
  if head[line.length]? = some 0x0A then some line
  else if (head.dropWhile isBlank).any endsWord then some head.dropLast
  else none

/-- The interpreter that a line names, and its argument. -/
def ofLine? (line : Bytes) : Option Script :=
  let words := trim line
  let first := words.takeWhile fun b => !endsWord b
  match words.drop first.length with
  | [] => if first = [] then none else some ⟨⟨Text.Utf8.decodeLossy first⟩, none⟩
  | b :: rest =>
    let argument := (rest.dropWhile isBlank).takeWhile (· != 0)
    some ⟨⟨Text.Utf8.decodeLossy first⟩,
      if isBlank b then some (Text.Utf8.decodeLossy argument) else none⟩

/-- The script that a file is. -/
def ofBytes? (content : Bytes) : Option Script :=
  match head content with
  | 0x23 :: 0x21 :: rest => (firstLine? rest).bind ofLine?
  | _ => none

end Script
end LiveBuild
