/-
# Errors of the operating system

The ways in which a path can fail to lead to what was asked for, or a program to be
run, with the numbers and texts that the operating system gives them.  Texts with a NUL
never get that far; they are refused before, without a number.
-/

namespace LiveBuild

/-- Why the operating system refused. -/
inductive OsError where
  | notFound
  | argumentTooLong
  | notExecutable
  | permissionDenied
  | notADirectory
  | isADirectory
  | nameTooLong
  | tooManyLinks
  /-- There is a NUL in a path. -/
  | nulInPath
  /-- There is a NUL in the path of a program or in one of its arguments. -/
  | nulInCommand
  deriving DecidableEq, Repr

namespace OsError

/-- The number of an error, if it has one. -/
def code? : OsError → Option Nat
  | .notFound => some 2
  | .argumentTooLong => some 7
  | .notExecutable => some 8
  | .permissionDenied => some 13
  | .notADirectory => some 20
  | .isADirectory => some 21
  | .nameTooLong => some 36
  | .tooManyLinks => some 40
  | .nulInPath => none
  | .nulInCommand => none

/-- What an error is called. -/
def label : OsError → String
  | .notFound => "No such file or directory"
  | .argumentTooLong => "Argument list too long"
  | .notExecutable => "Exec format error"
  | .permissionDenied => "Permission denied"
  | .notADirectory => "Not a directory"
  | .isADirectory => "Is a directory"
  | .nameTooLong => "File name too long"
  | .tooManyLinks => "Too many levels of symbolic links"
  | .nulInPath => "file name contained an unexpected NUL byte"
  | .nulInCommand => "nul byte found in provided data"

/-- The text of an error. -/
def message (e : OsError) : String :=
  match e.code? with
  | some code => s!"{e.label} (os error {code})"
  | none => e.label

end OsError
end LiveBuild
