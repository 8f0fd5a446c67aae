/-
# The file system

A file system is a table of entries by address, an address being the list of
names that lead there from the root.  The root is always a directory.  A file has
content, and a mode that tells whether it may be run; a link has a target path.

There are no permissions: whoever asks may read every directory and every file, and an
operation fails only for what a path is or leads to.  A name is a text (`FileName`), so a
directory holds no name that is none, and a listing has nothing to skip on that account.

A walk goes along a path one component at a time (`walk`).  Every step starts in
a directory; a name of more than `maxNameBytes` bytes leads nowhere, and one that leads
to a link goes on along the link's target first, from the directory that holds the link
or from the root.  A walk follows at most `maxLinks` links, and a path that is empty, has
`maxPathBytes` bytes or more, or has a NUL in it, is refused before the first step.  A
relative path starts at the root too.

`walk_append` cuts a walk in two: what a directory path leads to, then what its
members lead to from there.
-/

import LiveBuild.Table
import LiveBuild.Path
import LiveBuild.Process
import LiveBuild.FileSystem.OsError

namespace LiveBuild

/-- Where an entry is: the names that lead there from the root. -/
abbrev Address := List FileName

/-- Whether a file may be run, and what runs then. -/
inductive FileMode where
  | plain
  /-- It may be run, but is no program; its content may be a script. -/
  | marked
  | program (run : Executable)

/-- What is at an address. -/
inductive Entry where
  | directory
  | file (content : Bytes) (mode : FileMode)
  | link (target : Path)

/-- Entries by address. -/
structure FileSystem where
  entries : Table Address Entry

namespace FileSystem

/-- The file system with an empty root. -/
def empty : FileSystem := ⟨Table.empty⟩

instance : Inhabited FileSystem := ⟨empty⟩

/-- How many links a walk may follow. -/
def maxLinks : Nat := 40

/-- A name of more bytes is too long. -/
def maxNameBytes : Nat := 255

/-- A path of so many bytes is too long. -/
def maxPathBytes : Nat := 4096

/-- What is at an address, links not followed. -/
def entry? (fs : FileSystem) (a : Address) : Option Entry :=
  if a = [] then some .directory else fs.entries.find? a

/-- A walk that ends: the address reached, and how many links could still be followed. -/
abbrev Walk := Except OsError (Address × Nat)

/-- The steps of a walk from an address, where `follow` walks on behind a link. -/
def steps (fs : FileSystem) (links : Nat) (follow : Address → List Component → Walk) :
    Address → List Component → Walk
  | a, [] => .ok (a, links)
  | a, c :: cs =>
    match fs.entry? a with
    | none => .error .notFound
    | some (.file _ _) => .error .notADirectory
    | some (.link _) => .error .notADirectory
    | some .directory =>
      match c with
      | .here => steps fs links follow a cs
      | .up => steps fs links follow a.dropLast cs
      | .name n =>
        if maxNameBytes < n.text.utf8ByteSize then .error .nameTooLong
        else
          match fs.entry? (a ++ [n]) with
          | none => .error .notFound
          | some (.link target) =>
            follow (if target.isAbsolute then [] else a) (target.components ++ cs)
          | some _ => steps fs links follow (a ++ [n]) cs

/-- The walk along components from an address, following at most `links` links. -/
def walk (fs : FileSystem) : (links : Nat) → Address → List Component → Walk
  | 0 => steps fs 0 fun _ _ => .error .tooManyLinks
  | links + 1 => steps fs (links + 1) (walk fs links)

/-- **A walk can be cut anywhere:** it is the walk along the first part, and from where
that ends, with the links that are left, the walk along the second. -/
theorem walk_append (fs : FileSystem) (links : Nat) (a : Address) (cs ds : List Component) :
    fs.walk links a (cs ++ ds) = (fs.walk links a cs).bind fun r => fs.walk r.2 r.1 ds := by
  -- a link puts its own components in front, so the components cannot carry the induction alone
  induction links generalizing a cs with
  | zero =>
    show steps fs 0 _ a (cs ++ ds) = (steps fs 0 _ a cs).bind _
    induction cs generalizing a with
    | nil => rfl
    | cons c cs ih =>
      simp only [List.cons_append, steps]
      split <;> try rfl
      split
      · exact ih _
      · exact ih _
      · split
        · rfl
        · split
          · rfl
          · rfl
          · exact ih _
  | succ links ihl =>
    show steps fs (links + 1) _ a (cs ++ ds) = (steps fs (links + 1) _ a cs).bind _
    induction cs generalizing a with
    | nil => rfl
    | cons c cs ih =>
      simp only [List.cons_append, steps]
      split <;> try rfl
      split
      · exact ih _
      · exact ih _
      · split
        · rfl
        · split
          · rfl
          · rw [← List.append_assoc]; exact ihl _ _
          · exact ih _

/-- The address that a path leads to. -/
def resolve (fs : FileSystem) (p : Path) : Except OsError Address :=
  if Text.hasNul p.text then .error .nulInPath
  else if p.text = "" then .error .notFound
  else if maxPathBytes ≤ p.text.utf8ByteSize then .error .nameTooLong
  else (fs.walk maxLinks [] p.components).map Prod.fst

/-- The address of the file that would be written at the end of a walk: links are followed
to where they lead, though nothing be there yet. -/
def destinationFrom (fs : FileSystem) : (links : Nat) → Address → List Component → Option Address
  | links, a, cs =>
    match fs.walk maxLinks a cs.dropLast, cs.getLast? with
    | .ok (b, _), some (.name n) =>
      match fs.entry? (b ++ [n]), links with
      | some (.link target), links + 1 =>
        fs.destinationFrom links (if target.isAbsolute then [] else b) target.moves
      | some (.link _), 0 => none
      | _, _ => some (b ++ [n])
    | .ok (b, _), some .up => some b.dropLast
    | .ok (b, _), _ => some b
    | .error _, _ => none

/-- The address of the file that would be written at a path. -/
def destination (fs : FileSystem) (p : Path) : Option Address :=
  fs.destinationFrom maxLinks [] p.moves

/-- What a path leads to, links followed. -/
def target? (fs : FileSystem) (p : Path) : Except OsError (Address × Entry) :=
  match fs.resolve p with
  | .error e => .error e
  | .ok a =>
    match fs.entry? a with
    | none => .error .notFound
    | some e => .ok (a, e)

/-- Whether a path leads to a file. -/
def isFile (fs : FileSystem) (p : Path) : Bool :=
  match fs.target? p with
  | .ok (_, .file _ _) => true
  | _ => false

/-- Whether a path leads to a directory. -/
def isDirectory (fs : FileSystem) (p : Path) : Bool :=
  match fs.target? p with
  | .ok (_, .directory) => true
  | _ => false

/-- The bytes of the file that a path leads to. -/
def read (fs : FileSystem) (p : Path) : Except OsError Bytes :=
  match fs.target? p with
  | .ok (_, .file content _) => .ok content
  | .ok (_, _) => .error .isADirectory
  | .error e => .error e

/-- The last name of `b`, if `b` is an address directly in `a`. -/
def childName? (a b : Address) : Option FileName :=
  match Text.dropPrefix? a b with
  | some [n] => some n
  | _ => none

/-- The names in the directory at an address, in no particular order. -/
def namesAt (fs : FileSystem) (a : Address) : List FileName :=
  fs.entries.keys.filterMap (childName? a)

/-- The names in the directory that a path leads to, in no particular order. -/
def readDirectory (fs : FileSystem) (p : Path) : Except OsError (List FileName) :=
  match fs.target? p with
  | .ok (a, .directory) => .ok (fs.namesAt a)
  | .ok (_, _) => .error .notADirectory
  | .error e => .error e

/-- Whether a path leads to a file that may be run. -/
def isExecutable (fs : FileSystem) (p : Path) : Bool :=
  match fs.target? p with
  | .ok (_, .file _ .plain) => false
  | .ok (_, .file _ _) => true
  | _ => false

/-- An address is directly in another one if it is that one with a name behind it. -/
theorem childName?_eq_some_iff {a b : Address} {n : FileName} :
    childName? a b = some n ↔ b = a ++ [n] := by
  unfold childName?
  constructor
  · intro h
    split at h
    · rename_i m hm
      rw [Text.dropPrefix?_eq_some_iff] at hm
      simp_all
    · cases h
  · rintro rfl
    rw [Text.dropPrefix?_eq_some_iff.2 rfl]

/-- The names at an address are those under which there is something. -/
theorem mem_namesAt_iff (fs : FileSystem) (a : Address) (n : FileName) :
    n ∈ fs.namesAt a ↔ (fs.entry? (a ++ [n])).isSome := by
  simp [namesAt, entry?, childName?_eq_some_iff, Table.find?_isSome_iff]

/-- Every name is in a directory once. -/
theorem nodup_namesAt (fs : FileSystem) (a : Address) : (fs.namesAt a).Nodup := by
  refine List.Pairwise.filterMap _ ?_ fs.entries.nodup_keys
  intro b c hbc n hb m hc hnm
  rw [childName?_eq_some_iff] at hb hc
  exact hbc (by rw [hb, hc, hnm])

/-- A path to a directory is shorter than the limit. -/
theorem bytes_lt_of_isDirectory {fs : FileSystem} {p : Path} (h : fs.isDirectory p) :
    p.text.utf8ByteSize < maxPathBytes := by
  unfold isDirectory target? resolve at h
  by_cases hn : Text.hasNul p.text
  · simp [hn] at h
  · by_cases he : p.text = ""
    · simp [he, maxPathBytes]
    · by_cases hp : maxPathBytes ≤ p.text.utf8ByteSize
      · simp [hn, he, hp] at h
      · omega

end FileSystem
end LiveBuild
