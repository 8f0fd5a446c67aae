/-
# Launching

What runs when a path is run: the program that it leads to, or the interpreter of the
script that it leads to.  An interpreter gets the argument that the script gives it and
the script's own path before all other arguments, and may be a script itself.

| the path leads to | error |
| --- | --- |
| nothing | that of the walk |
| a directory, or a file that may not be run | permission denied |
| a file to be run with an argument of `maxArgumentBytes` bytes | argument too long |
| a file that is no program and no script | not executable |
| a script | what running its interpreter says |
| more than `maxScripts` scripts in a row | too many links |
-/

import LiveBuild.FileSystem.Basic
import LiveBuild.FileSystem.Script

namespace LiveBuild

/-- A program that is to run, where it is, and all its arguments. -/
structure Launch where
  address : Address
  arguments : List String
  run : Executable

namespace FileSystem

/-- How many scripts may be run in a row. -/
def maxScripts : Nat := 5

/-- An argument of so many bytes is too long. -/
def maxArgumentBytes : Nat := 131072

/-- What runs when a path is run, where at most `left` files come into play. -/
def launchWithin (fs : FileSystem) :
    (left : Nat) → (p : Path) → (arguments : List String) → Except OsError Launch
  | left, p, arguments =>
    match fs.target? p with
    | .error e => .error e
    | .ok (_, .directory) => .error .permissionDenied
    | .ok (_, .link _) => .error .permissionDenied
    | .ok (_, .file _ .plain) => .error .permissionDenied
    | .ok (a, .file content mode) =>
      match left with
      | 0 => .error .tooManyLinks
      | left + 1 =>
        match mode with
        | .program run => .ok ⟨a, arguments, run⟩
        | _ =>
          match Script.ofBytes? content with
          | none => .error .notExecutable
          | some script =>
            fs.launchWithin left script.interpreter
              (script.argument.toList ++ p.text :: arguments)

/-- What runs when a path is run with arguments. -/
def launch (fs : FileSystem) (p : Path) (arguments : List String) : Except OsError Launch :=
  if fs.isExecutable p ∧ arguments.any fun a => maxArgumentBytes ≤ a.utf8ByteSize then
    .error .argumentTooLong
  else fs.launchWithin (maxScripts + 1) p arguments

end FileSystem
end LiveBuild
