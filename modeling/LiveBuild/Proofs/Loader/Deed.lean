/-
# Deeds

What happens to the artifacts of a loader, as far as their bytes and images go, written
down in the order in which it happens: an artifact is created under a name, bytes are
written to it, it is asked for in loaded form.

A log of deeds says what was written to an artifact, all in all (`written`), and what had
been written when it was first asked for (`written` of `untilLoaded`).  The rest, written
afterwards, is what an image made at that moment does not show (`written` of
`sinceLoaded`).
-/

import LiveBuild.Compiler
import LiveBuild.Proofs.Toolchain.Transcript

namespace LiveBuild

/-- What happens to an artifact. -/
inductive Deed where
  /-- A new artifact is registered under a name. -/
  | created (name : String) (artifact : Ref Artifact)
  | wrote (artifact : Ref Artifact) (bytes : Bytes)
  /-- The artifact is looked up, or materialized at the end of a build. -/
  | loaded (artifact : Ref Artifact)
  deriving DecidableEq

/-- The bytes that a deed writes to an artifact. -/
def Deed.writtenTo (r : Ref Artifact) : Deed → Bytes
  | .wrote a bytes => if a = r then bytes else []
  | _ => []

namespace Log

/-- Everything written to an artifact, in order. -/
def written (r : Ref Artifact) (log : List Deed) : Bytes := log.flatMap (Deed.writtenTo r)

/-- The deeds before an artifact is first asked for in loaded form. -/
def untilLoaded (r : Ref Artifact) (log : List Deed) : List Deed := log.takeWhile (· ≠ .loaded r)

/-- The deeds from the moment on at which an artifact is first asked for in loaded form. -/
def sinceLoaded (r : Ref Artifact) (log : List Deed) : List Deed := log.dropWhile (· ≠ .loaded r)

/-- What was written by some deeds and then by others was written by both, in that order. -/
theorem written_append (r : Ref Artifact) (a b : List Deed) :
    written r (a ++ b) = written r a ++ written r b := List.flatMap_append

/-- **What was written is what was written until an artifact was first asked for, and what was
written since.** -/
theorem written_split (r : Ref Artifact) (log : List Deed) :
    written r log = written r (untilLoaded r log) ++ written r (sinceLoaded r log) := by
  rw [← written_append, untilLoaded, sinceLoaded, List.takeWhile_append_dropWhile]

/-- The deeds before the first request for an artifact end where it is first asked for, whatever
came later. -/
theorem untilLoaded_append_loaded {r : Ref Artifact} {log : List Deed} (h : .loaded r ∉ log)
    (more : List Deed) : untilLoaded r (log ++ .loaded r :: more) = log := by
  have hne : ∀ d ∈ log, decide (d ≠ .loaded r) = true := fun d hd =>
    decide_eq_true (ne_of_mem_of_not_mem hd h)
  rw [untilLoaded, List.takeWhile_append_of_pos hne]
  simp

/-- What comes after an artifact was asked for does not move the moment at which it was. -/
theorem untilLoaded_append_of_mem {r : Ref Artifact} {log : List Deed} (h : .loaded r ∈ log)
    (more : List Deed) : untilLoaded r (log ++ more) = untilLoaded r log := by
  obtain ⟨a, b, rfl, ha⟩ := List.eq_append_cons_of_mem h
  rw [List.append_assoc, List.cons_append, untilLoaded_append_loaded ha, untilLoaded_append_loaded ha]

end Log

/-- The deeds of looking names up, one after the other, with a materializer that refuses
nothing: those that the loader owns are loaded. -/
def Loader.lookups (l : Loader) (names : List String) (s : Store) : List Deed :=
  names.filterMap fun n => (l.artifact? n s).map .loaded

namespace BuildState

/-- The deeds of a request.  A write that is refused is none, and neither is one to an
artifact that does not exist. -/
def deeds (m : FileManager) (b : BuildState) : Request → List Deed
  | .outputFor _ name kind _ =>
    if kind = .source ∨ ((m.asked b.store).artifacts.find? name).isSome then []
    else [.created name (b.store.artifacts.alloc (.new name kind)).1]
  | .write (.artifact a) bytes =>
    if b.store.artifacts.Live a ∧ ((Store.writeArtifact a bytes).attempt b.store).1.isOk then
      [.wrote a bytes]
    else []
  | .find _ name => m.loader.lookups [name] b.store
  | _ => []

end BuildState

namespace Interaction

/-- The deeds of an interaction, one request after the other. -/
def deeds {α : Type} (m : FileManager) (x : Interaction α) (b : BuildState) : List Deed :=
  (x.transcript m b).flatMap fun t => t.1.deeds m t.2

end Interaction

end LiveBuild
