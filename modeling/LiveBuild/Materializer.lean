/-
# Materializers

A materializer makes a loaded artifact of bytes, or fails.  What it answers may
depend on the calls it got before; the store records them all.

| materializer | answers |
| --- | --- |
| `image` | the image of the bytes, always |
| `sharedObject` | a library, if the platform can load the bytes as one |
| `failing` | the image, after a number of failures chosen for each name |

An artifact is materialized at most once: `Store.materialize` answers what was made
of it before without asking a materializer again, and a failure leaves the artifact
as it was.
-/

import LiveBuild.Store

namespace LiveBuild

/-- What makes loaded artifacts of bytes. -/
structure Materializer where
  /-- The number that tells its calls from those of others. -/
  id : Nat
  /-- The answer to a call, given the calls before it. -/
  answer : List MaterializerCall → MaterializerCall → Except Error LoadedArtifact

namespace Materializer

/-- The image of a call's bytes. -/
def imageOf (c : MaterializerCall) : LoadedArtifact := .ofImage c.name c.kind c.bytes

/-- Answers the image of the bytes. -/
def image (id : Nat) : Materializer := ⟨id, fun _ c => .ok (imageOf c)⟩

/-- Loads the bytes as a shared object, where `exports` says what the platform's loader
makes of them. -/
def sharedObject (id : Nat) (exports : Bytes → Option (List String)) : Materializer where
  id := id
  answer := fun _ c =>
    match exports c.bytes with
    | some symbols => .ok { imageOf c with exported := some symbols }
    | none => .error .libraryLoad

/-- Fails the first calls for each name as often as `failures` says, and then answers the
image of the bytes. -/
def failing (id : Nat) (failures : Table String Nat) : Materializer where
  id := id
  answer := fun earlier c =>
    if (earlier.filter fun e => e.name = c.name).length < (failures.find? c.name).getD 0 then
      .error (.materialization c.name "scripted")
    else .ok (imageOf c)

/-- The calls that a materializer got so far. -/
def callsIn (m : Materializer) (s : Store) : List MaterializerCall :=
  (s.attempts.filter fun a => a.materializer = m.id).map Attempt.call

/-- Calls a materializer. -/
def run (m : Materializer) (c : MaterializerCall) : Action LoadedArtifact := fun s =>
  match m.answer (m.callsIn s) c with
  | .ok l => .ok l { s with attempts := s.attempts ++ [⟨m.id, c, true⟩] }
  | .error e => .error e { s with attempts := s.attempts ++ [⟨m.id, c, false⟩] }

/-- Calls a materializer and keeps what it answers as an object of its own. -/
def load (m : Materializer) (c : MaterializerCall) : Action (Ref LoadedArtifact) := fun s =>
  match m.run c s with
  | .ok l s => .ok (s.newLoaded l).1 (s.newLoaded l).2
  | .error e s => .error e s

end Materializer

namespace Store

/-- What an artifact becomes loaded as: what was made of it before, or what the
materializer makes of it now. -/
def materialize (m : Materializer) (r : Ref Artifact) : Action (Ref LoadedArtifact) := fun s =>
  let a := s.artifacts.get r
  match a.loaded with
  | some h => .ok h s
  | none =>
    match m.load ⟨a.name, a.kind, a.bytes⟩ s with
    | .ok h s =>
      .ok h { s with artifacts := s.artifacts.modify r fun a => { a with loaded := some h } }
    | .error e s => .error e s

end Store
end LiveBuild
