/-
# Hosts that register nothing

A loader turns to its parent for the names that it does not own.  To answer, the parent may
load something and remember it.  A host is steady (`Host.Steady`) if that is all: no loader
owns anything else afterwards, nothing more was asked for, and every artifact goes on
(`Store.Steady`).

To load and to materialize is steady (`Steady.bearsLoading`, `steady_materialize`), so every chain
of loaders is.
-/

import LiveBuild.Proofs.Host.Keeps
import LiveBuild.Proofs.Store.Continuation

namespace LiveBuild

/-- Owned is what was owned, asked for is what was asked for, and every artifact goes on. -/
structure Store.Steady (s t : Store) : Prop where
  namespaces : t.namespaces = s.namespaces
  outputs : t.outputs = s.outputs
  continues : s.Continues t

namespace Store

theorem Steady.refl (s : Store) : s.Steady s := ⟨rfl, rfl, .refl s⟩

theorem Steady.trans {s t u : Store} (h : s.Steady t) (h' : t.Steady u) : s.Steady u :=
  ⟨h'.namespaces.trans h.namespaces, h'.outputs.trans h.outputs, h.continues.trans h'.continues⟩

/-- What is loaded goes on beside what there was. -/
theorem Steady.bearsLoading : BearsLoading Steady where
  refl := .refl
  load s attempts caches loaded h := by
    rcases h with rfl | ⟨l, rfl⟩
    · exact ⟨rfl, rfl, .of_eq rfl rfl⟩
    · exact ⟨rfl, rfl, .of_newLoaded l rfl rfl⟩

/-- A loader owns what it owned. -/
theorem Steady.artifact? {s t : Store} (h : s.Steady t) (l : Loader) (name : String) :
    l.artifact? name t = l.artifact? name s := by
  rw [Loader.artifact?, Loader.artifact?, Loader.table, Loader.table, h.namespaces]

/-- To materialize an artifact registers nothing. -/
theorem steady_materialize (m : Materializer) (r : Ref Artifact) (s : Store) :
    s.Steady ((materialize m r).attempt s).2 := by
  have hcontinues := Continues.materialize m r s
  obtain ⟨artifacts, loaded, attempts, hx⟩ := store_materialize m r s
  rw [hx] at hcontinues ⊢
  exact ⟨rfl, rfl, hcontinues⟩

/-- A write registers nothing, also one that is refused. -/
theorem steady_write (sink : Sink) (bytes : Bytes) (s : Store) :
    s.Steady ((sink.write bytes).attempt s).2 := by
  have hcontinues := Continues.write sink bytes s
  rcases sink.write_cases bytes s with ⟨e, hx⟩ | ⟨r, a, -, -, hx⟩ | ⟨u, v, -, -, hx⟩ <;>
    rw [hx] at hcontinues ⊢ <;> exact ⟨rfl, rfl, hcontinues⟩

/-- To finish artifacts registers nothing. -/
theorem steady_finalizeAll (s : Store) (rs : List (Ref Artifact)) : s.Steady (s.finalizeAll rs) :=
  ⟨namespaces_finalizeAll s rs, by rw [finalizeAll_eq], .finalizeAll s rs⟩

/-- To run a program registers nothing. -/
theorem steady_execute (program : Path) (arguments : List String) (stdin : Bytes) (s : Store) :
    s.Steady (s.execute program arguments stdin).2 := by
  obtain ⟨processes, hx⟩ := s.store_execute program arguments stdin
  rw [hx]
  exact ⟨rfl, rfl, .of_eq rfl rfl⟩

end Store

/-- A host that registers nothing. -/
abbrev Host.Steady (h : Host) : Prop := h.Keeps Store.Steady

/-- To resolve a name registers nothing. -/
theorem Loader.steady_resolve {l : Loader} (hparent : l.parent.Steady) (name : String) (s : Store) :
    s.Steady ((l.resolve name).attempt s).2 := by
  rw [← l.store_find? name s]
  exact Host.keeps_loader Store.steady_materialize hparent name s

end LiveBuild
