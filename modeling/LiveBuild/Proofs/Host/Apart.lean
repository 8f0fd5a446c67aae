/-
# Hosts that keep to themselves

A loader hands every name it does not own to its parent, and the parent may do something
to the store to answer: a class path loads and remembers, a loader materializes.  A host
is apart from what comes later (`Host.Apart`) if it does nothing to artifacts that are
made after it, nor to any namespace.

To load is no more than that (`bearsLoading_apart`).  To materialize is more: a loader is
apart if all its artifacts are older and its parent is apart (`apart_loader`).
-/

import LiveBuild.Proofs.Host.Keeps
import LiveBuild.Proofs.Store.Materialization
import LiveBuild.Proofs.Store.Spares

namespace LiveBuild

/-- The namespaces that there were in `origin` are in `s` as they were. -/
def Store.KeepsNamespaces (origin s : Store) : Prop :=
  ∀ ns, origin.namespaces.Live ns → s.namespaces.get ns = origin.namespaces.get ns

/-- A host that does nothing to what is younger than `origin`, as long as the namespaces of
that time are as they were. -/
abbrev Host.Apart (h : Host) (origin : Store) : Prop :=
  h.Keeps fun s t => origin.KeepsNamespaces s → s.Spares origin.artifacts.size t

namespace Host

/-- What is loaded is younger than everything. -/
theorem bearsLoading_apart (origin : Store) : Store.BearsLoading fun s t =>
    origin.KeepsNamespaces s → s.Spares origin.artifacts.size t where
  refl s _ := .refl _ s
  load s attempts caches loaded h _ := by
    rcases h with rfl | ⟨l, rfl⟩
    · exact .of_eq _ rfl rfl rfl
    · exact .of_alloc _ l rfl rfl rfl

/-- Materializing an older artifact leaves the younger ones alone. -/
theorem spares_materialize (m : Materializer) {r : Ref Artifact} {base : Nat} (hr : r.index < base)
    (s : Store) : s.Spares base ((Store.materialize m r).attempt s).2 := by
  rcases Store.materialize_cases m r s with ⟨h, -, hx⟩ | ⟨e, -, -, hx⟩ | ⟨l, -, -, hx⟩
  · rw [hx]
    exact .refl base s
  · rw [hx]
    exact .of_eq base rfl rfl rfl
  · rw [hx]
    have hloaded : s.Spares base { s with loaded := (s.loaded.alloc l).2 } :=
      .of_alloc base l rfl rfl rfl
    exact hloaded.trans (.of_set _ (.inl hr) rfl rfl rfl)

/-- **A loader keeps to itself** if its artifacts are older and its parent does. -/
theorem apart_loader {l : Loader} {origin : Store} (hl : origin.namespaces.Live l.owned)
    (howned : ∀ name r, l.artifact? name origin = some r → origin.artifacts.Live r)
    (hparent : l.parent.Apart origin) : l.toHost.Apart origin := by
  intro name s hs
  show s.Spares _ ((l.find? name).attempt s).2
  rcases l.store_find?_cases name s with ⟨-, hx⟩ | ⟨r, h, hx⟩
  · rw [hx]
    exact hparent name s hs
  · have hr : origin.artifacts.Live r := by
      apply howned name r
      rw [← h, Loader.artifact?, Loader.artifact?, Loader.table, Loader.table, hs _ hl]
    rw [hx]
    exact spares_materialize l.materializer hr s

end Host
end LiveBuild
