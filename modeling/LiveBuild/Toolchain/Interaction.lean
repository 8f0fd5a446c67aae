/-
# What a toolchain does during a build

A toolchain acts through requests alone: it asks its file manager for sinks, files
and names, writes to sinks, reads units and files, runs programs, reports diagnostics
and keeps a journal.  An `Interaction` is all that it will do, as data: it is over, with
a value, an error or a panic, or it makes a request and goes on with the answer.

Running an interaction answers its requests one after the other from the state of
the build: the store, and the diagnostics reported so far.

`run_bind` says that a sequence of two interactions runs the second one where the
first one ended.
-/

import LiveBuild.FileManager

namespace LiveBuild

/-- What a toolchain can ask for. -/
inductive Request where
  /-- A sink for an output. -/
  | outputFor (location : Location) (name : String) (kind : Kind) (sibling : Option FileHandle)
  /-- To have bytes written to a sink. -/
  | write (sink : Sink) (bytes : Bytes)
  /-- The sources asked for that are still to be compiled. -/
  | takeGenerated
  /-- The files of a package. -/
  | list (location : Location) (package : String) (kinds : List Kind) (recurse : Bool)
  /-- The qualified name of a file. -/
  | binaryName (location : Location) (file : FileHandle)
  /-- Whether two handles are the same file. -/
  | same (a b : FileHandle)
  /-- The loaded artifact of a name in the namespace of a location. -/
  | find (location : Location) (name : String)
  /-- What was loaded. -/
  | loaded (artifact : Ref LoadedArtifact)
  /-- Where the namespace of a location has the artifacts of a package. -/
  | resources (location : Location) (package : String)
  /-- The contents of a file. -/
  | read (file : FileHandle)
  /-- What a source unit is. -/
  | unit (unit : Ref SourceUnit)
  /-- To have diagnostics recorded. -/
  | report (diagnostics : List Diagnostic)
  /-- To have a program run. -/
  | execute (program : Path) (arguments : List String) (stdin : Bytes)
  /-- To have an event written into a journal. -/
  | note (journal : Nat) (event : Event)

/-- What the answer to a request is. -/
def Request.Answer : Request → Type
  | .outputFor .. => Sink
  | .write .. => Except Error Unit
  | .takeGenerated => List (Ref SourceUnit)
  | .list .. => Except Error (List FileHandle)
  | .binaryName .. => Option String
  | .same .. => Bool
  | .find .. => Except Error (Option (Ref LoadedArtifact))
  | .loaded _ => LoadedArtifact
  | .resources .. => Except Error (List ResourceRoot)
  | .read _ => Except Error Bytes
  | .unit _ => SourceUnit
  | .report _ => Unit
  | .execute .. => Except OsError ProcessOutput
  | .note .. => Unit

/-- What a toolchain does until it is over. -/
inductive Interaction (α : Type) where
  | done (value : α)
  | fail (error : Error)
  /-- It stops dead, with a message or without. -/
  | panic (message : Option String)
  | ask (request : Request) (next : request.Answer → Interaction α)

/-- How an interaction ended. -/
inductive Outcome (α : Type) where
  | finished (value : α)
  | failed (error : Error)
  | panicked (message : Option String)

/-- The state of a build: the store, and the diagnostics reported in this build. -/
structure BuildState where
  store : Store
  reported : List Diagnostic

namespace BuildState

/-- The answer of an operation on the store, and the state that it leaves behind. -/
def attempt {α : Type} (b : BuildState) (x : Action α) : Except Error α × BuildState :=
  ((x.attempt b.store).1, { b with store := (x.attempt b.store).2 })

/-- The answer to a request, and the state that it leaves behind. -/
def answer (m : FileManager) (b : BuildState) : (r : Request) → r.Answer × BuildState
  | .outputFor location name kind sibling =>
    let (sink, store) := m.outputFor location name kind sibling b.store
    (sink, { b with store })
  | .write sink bytes => b.attempt (sink.write bytes)
  | .takeGenerated =>
    let (units, store) := m.takeGenerated b.store
    (units, { b with store })
  | .list location package kinds recurse => (m.list location package kinds recurse b.store, b)
  | .binaryName location file => (m.binaryName location file b.store, b)
  | .same f g => (m.same f g b.store, b)
  | .find location name => b.attempt ((m.loaderAt location).find? name)
  | .loaded artifact => (b.store.loaded.get artifact, b)
  | .resources location package =>
    ((m.loaderAt location).toHost.resources package b.store.files, b)
  | .read file => (file.read b.store, b)
  | .unit unit => (b.store.units.get unit, b)
  | .report diagnostics => ((), { b with reported := b.reported ++ diagnostics })
  | .execute program arguments stdin =>
    let (output, store) := b.store.execute program arguments stdin
    (output, { b with store })
  | .note journal event =>
    ((), { b with store := { b.store with journal := b.store.journal ++ [(journal, event)] } })

end BuildState

namespace Interaction

variable {α β : Type}

/-- One interaction, and then another one that depends on its value. -/
def bind : Interaction α → (α → Interaction β) → Interaction β
  | .done a, f => f a
  | .fail e, _ => .fail e
  | .panic message, _ => .panic message
  | .ask r next, f => .ask r fun x => (next x).bind f

instance : Monad Interaction where
  pure := .done
  bind := bind

/-- The interaction that treats an error of another one as a value. -/
def attempt : Interaction α → Interaction (Except Error α)
  | .done a => .done (.ok a)
  | .fail e => .done (.error e)
  | .panic message => .panic message
  | .ask r next => .ask r fun x => (next x).attempt

/-- Runs an interaction against a file manager. -/
def run (m : FileManager) : Interaction α → BuildState → Outcome α × BuildState
  | .done a, b => (.finished a, b)
  | .fail e, b => (.failed e, b)
  | .panic message, b => (.panicked message, b)
  | .ask r next, b => (next (b.answer m r).1).run m (b.answer m r).2

/-- **Sequences run one after the other:** the second interaction starts from the state
in which the first one ended, if it ended with a value. -/
theorem run_bind (m : FileManager) (x : Interaction α) (f : α → Interaction β) (b : BuildState) :
    (x.bind f).run m b =
      match x.run m b with
      | (.finished a, b) => (f a).run m b
      | (.failed e, b) => (.failed e, b)
      | (.panicked message, b) => (.panicked message, b) := by
  induction x generalizing b with
  | done a => rfl
  | fail e => rfl
  | panic message => rfl
  | ask r next ih => exact ih _ _

/-- Goes on with the value of an answer, or fails with its error. -/
def ofExcept : Except Error α → Interaction α
  | .ok a => .done a
  | .error e => .fail e

/-- Asks for a sink. -/
def outputFor (location : Location) (name : String) (kind : Kind) (sibling : Option FileHandle) :
    Interaction Sink :=
  .ask (.outputFor location name kind sibling) .done

/-- Writes to a sink. -/
def write (sink : Sink) (bytes : Bytes) : Interaction Unit := .ask (.write sink bytes) ofExcept

/-- Takes the sources that are still to be compiled. -/
def takeGenerated : Interaction (List (Ref SourceUnit)) := .ask .takeGenerated .done

/-- Lists a package. -/
def list (location : Location) (package : String) (kinds : List Kind) (recurse : Bool) :
    Interaction (List FileHandle) :=
  .ask (.list location package kinds recurse) ofExcept

/-- The qualified name of a file. -/
def binaryName (location : Location) (file : FileHandle) : Interaction (Option String) :=
  .ask (.binaryName location file) .done

/-- Looks a name up. -/
def find (location : Location) (name : String) : Interaction (Option (Ref LoadedArtifact)) :=
  .ask (.find location name) ofExcept

/-- Looks at what was loaded. -/
def loaded (artifact : Ref LoadedArtifact) : Interaction LoadedArtifact :=
  .ask (.loaded artifact) .done

/-- Looks at a source unit. -/
def unit (unit : Ref SourceUnit) : Interaction SourceUnit := .ask (.unit unit) .done

/-- Reports diagnostics. -/
def report (diagnostics : List Diagnostic) : Interaction Unit := .ask (.report diagnostics) .done

/-- Runs a program. -/
def execute (program : Path) (arguments : List String) (stdin : Bytes) :
    Interaction (Except OsError ProcessOutput) :=
  .ask (.execute program arguments stdin) .done

/-- Writes into a journal. -/
def note (journal : Nat) (event : Event) : Interaction Unit := .ask (.note journal event) .done

/-- One interaction for each item, and the values in the order of the items. -/
def each (f : α → Interaction β) : List α → Interaction (List β)
  | [] => .done []
  | a :: as => do
    let b ← f a
    let bs ← each f as
    return b :: bs

/-- One interaction for each item, and whether all of them answered yes. -/
def every (f : α → Interaction Bool) (as : List α) : Interaction Bool := do
  return (← each f as).all id

/-- Compiles units in rounds: what was asked for during one round is the next round, until
there is nothing left or `limit` rounds are over.  The answer is whether every round
answered yes. -/
def rounds (round : List (Ref SourceUnit) → Interaction Bool) :
    (limit : Nat) → List (Ref SourceUnit) → Interaction Bool
  | 0, _ => .done true
  | _ + 1, [] => .done true
  | 1, units => round units
  | limit + 2, units => do
    let ok ← round units
    let next ← takeGenerated
    let rest ← rounds round (limit + 1) next
    return ok && rest

end Interaction

/-- A compiler of source units, as a build drives it. -/
structure Toolchain where
  name : String
  /-- Compiles units with options; the answer is the toolchain's own verdict. -/
  compile : List (Ref SourceUnit) → List String → Interaction Bool

end LiveBuild
