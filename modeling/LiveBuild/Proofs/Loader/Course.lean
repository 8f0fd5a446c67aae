/-
# The course of a loader

Everything that happens to the artifacts of a loader is one of five things (`Step`): an
artifact is registered, written to, finalized or loaded, or something else happens that
spares all of them.  A course is a sequence of such steps together with the deeds that it
consists of.

What toolchains ask for, whole builds and resolutions are courses; so it is enough to show
of every step that it preserves a property.
-/

import LiveBuild.Proofs.Loader.Deed
import LiveBuild.Proofs.Host.Apart

namespace LiveBuild
namespace Loader

/-- One thing that happens to the artifacts from the number `base` on, and its deeds. -/
inductive Step (l : Loader) (base : Nat) : Store → List Deed → Store → Prop
  | spared {s t : Store} (h : s.Spares base t) : Step l base s [] t
  | finalized (s : Store) (r : Ref Artifact) : Step l base s [] (s.finalize r)
  | created (s : Store) (name : String) (kind : Kind) :
    Step l base s [.created name (s.newArtifact (.new name kind)).1]
      (l.register (s.newArtifact (.new name kind)).1 (s.newArtifact (.new name kind)).2).2
  | wrote {s : Store} {r : Ref Artifact} {bytes : Bytes} {a : Artifact}
    (hr : s.artifacts.Live r) (h : (s.artifacts.get r).write bytes = .ok a) :
    Step l base s [.wrote r bytes] { s with artifacts := s.artifacts.set r a }
  | loaded {s : Store} {name : String} {r : Ref Artifact} (hr : l.artifact? name s = some r) :
    Step l base s [.loaded r] ((Store.materialize l.materializer r).attempt s).2

/-- A sequence of steps, and the deeds of all of them. -/
inductive Course (l : Loader) (base : Nat) (s : Store) : List Deed → Store → Prop
  | nil : Course l base s [] s
  | snoc {t u : Store} {log ds : List Deed} (h : Course l base s log t)
    (hs : l.Step base t ds u) : Course l base s (log ++ ds) u

namespace Course

variable {l : Loader} {base : Nat} {s t u : Store} {log log' : List Deed}

/-- One step is a course. -/
theorem of_step (h : l.Step base s log t) : l.Course base s log t := Course.nil.snoc h

/-- **Two courses, one after the other, are a course,** with the deeds of both. -/
theorem trans (h : l.Course base s log t) (h' : l.Course base t log' u) :
    l.Course base s (log ++ log') u := by
  induction h' with
  | nil => rwa [List.append_nil]
  | snoc _ hs ih =>
    rw [← List.append_assoc]
    exact ih.snoc hs

/-- What leaves the artifacts alone is a course without deeds. -/
theorem of_spares (h : s.Spares base t) : l.Course base s [] t := of_step (.spared h)

/-- To finish artifacts is a course without deeds. -/
theorem finalizeAll (l : Loader) (base : Nat) (s : Store) (rs : List (Ref Artifact)) :
    l.Course base s [] (s.finalizeAll rs) := by
  induction rs generalizing s with
  | nil => exact .nil
  | cons r rs ih => exact (of_step (.finalized s r)).trans (ih (s.finalize r))

/-- **What every step preserves, a course preserves.** -/
theorem preserves {P : Store → Prop} (hstep : ∀ {s ds t}, l.Step base s ds t → P s → P t)
    (h : l.Course base s log t) (hs : P s) : P t := by
  induction h with
  | nil => exact hs
  | snoc _ h ih => exact hstep h ih

end Course

/-- Steps keep the namespaces that were there before the loader was made. -/
theorem Step.keepsNamespaces {l : Loader} {origin s t : Store} {base : Nat} {ds : List Deed}
    (hl : ¬ origin.namespaces.Live l.owned) (h : l.Step base s ds t)
    (hs : origin.KeepsNamespaces s) : origin.KeepsNamespaces t := by
  intro ns hns
  cases h with
  | spared h => rw [h.namespaces, hs ns hns]
  | finalized r => exact hs ns hns
  | created name kind =>
    have hne : l.owned ≠ ns := fun he => hl (he ▸ hns)
    exact (Arena.get_modify_of_ne _ _ hne).trans (hs ns hns)
  | wrote hr h => exact hs ns hns
  | loaded hr => rw [Store.namespaces_materialize, hs ns hns]

end Loader
end LiveBuild
