/-
# The store

Everything that lives longer than one operation: the objects with an identity of
their own, each sort in its arena, the file system, and the records that tell
afterwards what was done.

| part | holds |
| --- | --- |
| `units`, `artifacts`, `loaded` | source units, artifacts, what was materialized |
| `namespaces` | the artifacts that each loader owns, by name |
| `caches` | what each class path has loaded, by name |
| `outputs` | what each file manager was asked for |
| `attempts` | every call of a materializer |
| `processes` | every process that ran |
| `journal` | what toolchains wrote down |

An operation that always succeeds is a function on stores.  One that may fail is an
`Action`: it answers a value or an error, and either way it leaves a store behind.
An error undoes nothing.
-/

import LiveBuild.Artifact
import LiveBuild.FileSystem.Launch
import LiveBuild.SourceUnit
import LiveBuild.Toolchain.Event

namespace LiveBuild

/-- The artifacts that a loader owns, by name. -/
abbrev Namespace := Table String (Ref Artifact)

/-- What a class path has loaded, by name. -/
abbrev LoadedTable := Table String (Ref LoadedArtifact)

/-- What a file manager was asked for in one build. -/
structure Outputs where
  artifacts : Table String (Ref Artifact)
  sources : Table String (Ref SourceUnit)
  /-- The sources that the toolchain has not taken yet. -/
  queue : List (Ref SourceUnit)
  deriving Inhabited

/-- Nothing was asked for yet. -/
def Outputs.none : Outputs := ⟨Table.empty, Table.empty, []⟩

/-- What a materializer is given. -/
structure MaterializerCall where
  name : String
  kind : Kind
  bytes : Bytes
  deriving DecidableEq, Repr

/-- A call of a materializer. -/
structure Attempt where
  /-- Which materializer was called. -/
  materializer : Nat
  call : MaterializerCall
  succeeded : Bool
  deriving DecidableEq, Repr

/-- A process that ran. -/
structure ProcessRecord where
  /-- Where the program is, under whatever path it was run. -/
  program : Address
  arguments : List String
  stdin : Bytes
  deriving DecidableEq, Repr

/-- The state of everything that lives longer than one operation. -/
structure Store where
  files : FileSystem
  /-- The directories in which programs are looked for. -/
  searchPath : List Path
  units : Arena SourceUnit
  artifacts : Arena Artifact
  loaded : Arena LoadedArtifact
  namespaces : Arena Namespace
  caches : Arena LoadedTable
  outputs : Arena Outputs
  attempts : List Attempt
  processes : List ProcessRecord
  journal : List (Nat × Event)
  deriving Inhabited

/-- An operation that may fail: it answers a value or an error and leaves a store behind. -/
abbrev Action := EStateM Error Store

namespace Action

variable {α : Type}

/-- What an operation answers, and the store that it leaves behind. -/
def attempt (x : Action α) (s : Store) : Except Error α × Store :=
  match x s with
  | .ok a s => (.ok a, s)
  | .error e s => (.error e, s)

/-- An attempt gives a value exactly if the action does, and then its store. -/
theorem attempt_eq_ok_iff {x : Action α} {s t : Store} {a : α} :
    x.attempt s = (.ok a, t) ↔ x s = .ok a t := by
  unfold attempt
  cases x s <;> simp

/-- An attempt gives an error exactly if the action does, and then its store. -/
theorem attempt_eq_error_iff {x : Action α} {s t : Store} {e : Error} :
    x.attempt s = (.error e, t) ↔ x s = .error e t := by
  unfold attempt
  cases x s <;> simp

end Action

namespace Store

/-- The store without objects, over an empty file system. -/
def empty : Store := default

/-- Makes a source unit. -/
def newUnit (u : SourceUnit) (s : Store) : Ref SourceUnit × Store :=
  ((s.units.alloc u).1, { s with units := (s.units.alloc u).2 })

/-- Makes an artifact. -/
def newArtifact (a : Artifact) (s : Store) : Ref Artifact × Store :=
  ((s.artifacts.alloc a).1, { s with artifacts := (s.artifacts.alloc a).2 })

/-- Makes a loaded artifact an object of its own. -/
def newLoaded (l : LoadedArtifact) (s : Store) : Ref LoadedArtifact × Store :=
  ((s.loaded.alloc l).1, { s with loaded := (s.loaded.alloc l).2 })

/-- Makes a namespace without names. -/
def newNamespace (s : Store) : Ref Namespace × Store :=
  ((s.namespaces.alloc Table.empty).1, { s with namespaces := (s.namespaces.alloc Table.empty).2 })

/-- Makes a cache without entries. -/
def newCache (s : Store) : Ref LoadedTable × Store :=
  ((s.caches.alloc Table.empty).1, { s with caches := (s.caches.alloc Table.empty).2 })

/-- Makes the outputs of a build in which nothing was asked for yet. -/
def newOutputs (s : Store) : Ref Outputs × Store :=
  ((s.outputs.alloc .none).1, { s with outputs := (s.outputs.alloc .none).2 })

/-- Writes the whole text of a source unit. -/
def writeUnit (r : Ref SourceUnit) (bytes : Bytes) : Action Unit := fun s =>
  match (s.units.get r).write bytes with
  | .ok u => .ok () { s with units := s.units.set r u }
  | .error e => .error e s

/-- Appends bytes to an artifact. -/
def writeArtifact (r : Ref Artifact) (bytes : Bytes) : Action Unit := fun s =>
  match (s.artifacts.get r).write bytes with
  | .ok a => .ok () { s with artifacts := s.artifacts.set r a }
  | .error e => .error e s

/-- Makes an artifact read-only. -/
def finalize (s : Store) (r : Ref Artifact) : Store :=
  { s with artifacts := s.artifacts.modify r Artifact.finalize }

/-- Finishing an artifact leaves all bytes as they are. -/
@[simp] theorem bytes_finalize (s : Store) (r r' : Ref Artifact) :
    ((s.finalize r).artifacts.get r').bytes = (s.artifacts.get r').bytes := by
  by_cases h : r = r'
  · subst h
    rw [finalize, Arena.get_modify_self, Artifact.finalize]
  · rw [finalize, Arena.get_modify_of_ne _ _ h]

/-- Finishing an artifact leaves what was made of artifacts as it is. -/
@[simp] theorem loaded_finalize (s : Store) (r r' : Ref Artifact) :
    ((s.finalize r).artifacts.get r').loaded = (s.artifacts.get r').loaded := by
  by_cases h : r = r'
  · subst h
    rw [finalize, Arena.get_modify_self, Artifact.finalize]
  · rw [finalize, Arena.get_modify_of_ne _ _ h]

/-- Makes several artifacts read-only. -/
def finalizeAll (s : Store) (rs : List (Ref Artifact)) : Store := rs.foldl finalize s

/-- Finishing artifacts changes no owner of a name. -/
theorem namespaces_finalizeAll (s : Store) (rs : List (Ref Artifact)) :
    (s.finalizeAll rs).namespaces = s.namespaces := by
  induction rs generalizing s with
  | nil => rfl
  | cons r rs ih => exact ih (s.finalize r)

/-- Runs the program that a path leads to and records that it ran. -/
def execute (program : Path) (arguments : List String) (stdin : Bytes) (s : Store) :
    Except OsError ProcessOutput × Store :=
  if (program.text :: arguments).any Text.hasNul then (.error .nulInCommand, s)
  else
    match s.files.launch program arguments with
    | .error e => (.error e, s)
    | .ok l =>
      (.ok (l.run l.arguments stdin),
        { s with processes := s.processes ++ [⟨l.address, l.arguments, stdin⟩] })

/-- To run a program changes the records of processes alone. -/
theorem store_execute (program : Path) (arguments : List String) (stdin : Bytes) (s : Store) :
    ∃ processes, (s.execute program arguments stdin).2 = { s with processes } := by
  unfold execute
  split
  · exact ⟨s.processes, rfl⟩
  · cases s.files.launch program arguments with
    | error e => exact ⟨s.processes, rfl⟩
    | ok l => exact ⟨_, rfl⟩

/-- The runs of the program that is, or was, where a path leads. -/
def runsOf (program : Path) (s : Store) : List ProcessRecord :=
  s.processes.filter fun r => s.files.destination program = some r.program

/-- What is in a journal, and the store in which that journal is empty. -/
def takeJournal (journal : Nat) (s : Store) : List Event × Store :=
  ((s.journal.filter fun e => e.1 = journal).map Prod.snd,
    { s with journal := s.journal.filter fun e => e.1 ≠ journal })

end Store
end LiveBuild
