/-
# Hosts that leave builds alone

In the middle of a build a toolchain may look a name up that its loader does not own, and the
parent of the loader may load something to answer.  A host is discreet (`Host.Discreet`) if it
does nothing to what a file manager was asked for, and all objects keep their identities.

To load and to materialize is discreet (`SparesOutputs.bearsLoading`, `sparesOutputs_materialize`),
so every chain of loaders is.
-/

import LiveBuild.Proofs.Host.Keeps
import LiveBuild.Proofs.Store.Identity

namespace LiveBuild

/-- What file managers were asked for is as it was, and all objects keep their identities. -/
structure Store.SparesOutputs (s t : Store) : Prop where
  identities : s.KeepsIdentities t
  outputs : t.outputs = s.outputs

theorem Store.SparesOutputs.refl (s : Store) : s.SparesOutputs s := ⟨.refl s, rfl⟩

theorem Store.SparesOutputs.trans {s t u : Store} (h : s.SparesOutputs t) (h' : t.SparesOutputs u) :
    s.SparesOutputs u :=
  ⟨h.identities.trans h'.identities, h'.outputs.trans h.outputs⟩

/-- What is loaded is no output. -/
theorem Store.SparesOutputs.bearsLoading : BearsLoading SparesOutputs where
  refl := .refl
  load _ _ _ _ _ := ⟨.of_eq rfl rfl, rfl⟩

/-- To materialize an artifact asks for no output. -/
theorem Store.sparesOutputs_materialize (m : Materializer) (r : Ref Artifact) (s : Store) :
    s.SparesOutputs ((Store.materialize m r).attempt s).2 := by
  refine ⟨.materialize m r s, ?_⟩
  obtain ⟨artifacts, loaded, attempts, hx⟩ := store_materialize m r s
  rw [hx]

/-- A host that does nothing to what file managers were asked for. -/
abbrev Host.Discreet (h : Host) : Prop := h.Keeps Store.SparesOutputs

end LiveBuild
