/-
# What hosts leave as it is

To answer a look-up a host may do something to the store.  What it leaves as it is, is a relation
between the store before a look-up and the store after it (`Host.Keeps`).

| host | what it does |
| --- | --- |
| the one that owns nothing, and the one with fixed roots | nothing |
| a class path | writes a call down, remembers, and may load one object more |
| a loader | what its parent does, or a call of its materializer |

A relation that bears loading (`Store.BearsLoading`) is kept by the first three.  A loader keeps it
if its parent does and calls of a materializer do (`keeps_loader`), so every chain of these hosts
does (`Ordinary.keeps`).
-/

import LiveBuild.Proofs.Host.ClassPath
import LiveBuild.Proofs.Loader.Resolve

namespace LiveBuild

variable {R : Store → Store → Prop}

/-- A relation that holds if nothing happens, and if something is loaded and remembered. -/
structure Store.BearsLoading (R : Store → Store → Prop) : Prop where
  refl : ∀ s, R s s
  load : ∀ (s : Store) attempts caches loaded,
    loaded = s.loaded ∨ (∃ l, loaded = (s.loaded.alloc l).2) → R s { s with attempts, caches, loaded }

namespace Host

/-- A host that keeps a relation: it holds between the stores before and after every look-up. -/
def Keeps (h : Host) (R : Store → Store → Prop) : Prop :=
  ∀ (name : String) (s : Store), R s ((h.find? name).attempt s).2

/-- The host that owns nothing does nothing. -/
theorem keeps_empty (hR : Store.BearsLoading R) : empty.Keeps R := fun _ s => hR.refl s

/-- Neither does the host with fixed roots. -/
theorem keeps_fixed (hR : Store.BearsLoading R) (roots : List ResourceRoot) :
    (fixed roots).Keeps R := fun _ s => hR.refl s

/-- **A class path keeps what bears loading:** it changes its own cache, and what was loaded. -/
theorem keeps_classPath (hR : Store.BearsLoading R) (c : ClassPath) : c.toHost.Keeps R := by
  intro name s
  show R s ((c.find? name).attempt s).2
  obtain ⟨attempts, caches, loaded, hx, hloaded⟩ := c.store_find? name s
  rw [hx]
  exact hR.load s attempts caches loaded hloaded

/-- **A loader keeps what its parent and materializing keep.** -/
theorem keeps_loader (hmade : ∀ m r s, R s ((Store.materialize m r).attempt s).2) {l : Loader}
    (hparent : l.parent.Keeps R) : l.toHost.Keeps R := by
  intro name s
  show R s ((l.find? name).attempt s).2
  rcases l.store_find?_cases name s with ⟨-, hx⟩ | ⟨r, -, hx⟩ <;> rw [hx]
  · exact hparent name s
  · exact hmade l.materializer r s

/-- The hosts there are: loaders, one over the other, and at the end of the chain a class path, fixed
roots or nothing. -/
inductive Ordinary : Host → Prop
  | empty : Ordinary empty
  | fixed (roots : List ResourceRoot) : Ordinary (fixed roots)
  | classPath (c : ClassPath) : Ordinary c.toHost
  | loader {l : Loader} (hparent : Ordinary l.parent) : Ordinary l.toHost

/-- **Every chain of loaders keeps what bears loading and materializing.** -/
theorem Ordinary.keeps (hR : Store.BearsLoading R)
    (hmade : ∀ m r s, R s ((Store.materialize m r).attempt s).2) {h : Host} (hh : h.Ordinary) :
    h.Keeps R := by
  induction hh with
  | empty => exact keeps_empty hR
  | fixed roots => exact keeps_fixed hR roots
  | classPath c => exact keeps_classPath hR c
  | loader _ ih => exact keeps_loader hmade ih

end Host
end LiveBuild
