/-
# Processes

An executable is what it answers to its arguments and its input: the bytes on its
two outputs, and how it ended.
-/

import LiveBuild.Text.Utf8

namespace LiveBuild

/-- How a process ended. -/
inductive ExitStatus where
  | exited (code : Nat)
  | killed (signal : Nat)
  deriving DecidableEq, Repr

namespace ExitStatus

/-- Whether a process ended well. -/
def isSuccess : ExitStatus → Bool
  | .exited code => code == 0
  | .killed _ => false

/-- The names of the signals from one on; the ones behind them have none. -/
def signalNames : Array String :=
  #["SIGHUP", "SIGINT", "SIGQUIT", "SIGILL", "SIGTRAP", "SIGABRT", "SIGBUS", "SIGFPE", "SIGKILL",
    "SIGUSR1", "SIGSEGV", "SIGUSR2", "SIGPIPE", "SIGALRM", "SIGTERM", "SIGSTKFLT", "SIGCHLD",
    "SIGCONT", "SIGSTOP", "SIGTSTP", "SIGTTIN", "SIGTTOU", "SIGURG", "SIGXCPU", "SIGXFSZ",
    "SIGVTALRM", "SIGPROF", "SIGWINCH", "SIGIO", "SIGPWR", "SIGSYS"]

/-- The name of a signal. -/
def signalName? : Nat → Option String
  | 0 => none
  | n + 1 => signalNames[n]?

example : signalName? 9 = some "SIGKILL" ∧ signalName? 31 = some "SIGSYS" := by decide

/-- How a process ended, in words. -/
def display : ExitStatus → String
  | .exited code => s!"exit status: {code}"
  | .killed signal =>
    match signalName? signal with
    | some name => s!"signal: {signal} ({name})"
    | none => s!"signal: {signal}"

end ExitStatus

/-- What a process left behind. -/
structure ProcessOutput where
  status : ExitStatus
  stdout : Bytes
  stderr : Bytes
  deriving DecidableEq, Repr

/-- An executable: what it answers to its arguments and its input. -/
abbrev Executable := List String → Bytes → ProcessOutput

end LiveBuild
