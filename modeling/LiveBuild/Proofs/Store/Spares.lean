/-
# What an operation leaves alone

`Spares base s t` says what the store `t` has in common with an earlier store `s` when
nothing was done to the artifacts from the number `base` on: those that there were and all
namespaces are as they were, and what was loaded stays loaded.  What else there is, units,
files, records of processes and older artifacts, may have changed.

It is what a loader needs to hear about an operation that is none of its own, where
`base` is the number of artifacts there were when the loader was made.
-/

import LiveBuild.Store

namespace LiveBuild
namespace Store

/-- Namespaces, and the artifacts from `base` on, are as they were; what was loaded stays. -/
structure Spares (base : Nat) (s t : Store) : Prop where
  namespaces : t.namespaces = s.namespaces
  size : t.artifacts.size = s.artifacts.size
  artifact : ∀ r : Ref Artifact, base ≤ r.index → s.artifacts.Live r →
    t.artifacts.get r = s.artifacts.get r
  live : ∀ h, s.loaded.Live h → t.loaded.Live h
  loaded : ∀ h, s.loaded.Live h → t.loaded.get h = s.loaded.get h

namespace Spares

variable {base : Nat} {s t u : Store}

theorem refl (base : Nat) (s : Store) : Spares base s s :=
  ⟨rfl, rfl, fun _ _ _ => rfl, fun _ h => h, fun _ _ => rfl⟩

theorem trans (h : Spares base s t) (h' : Spares base t u) : Spares base s u where
  namespaces := h'.namespaces.trans h.namespaces
  size := h'.size.trans h.size
  artifact r hr hlive := by
    have hlive' : t.artifacts.Live r := by
      rw [Arena.Live, h.size]
      exact hlive
    exact (h'.artifact r hr hlive').trans (h.artifact r hr hlive)
  live a ha := h'.live a (h.live a ha)
  loaded a ha := (h'.loaded a (h.live a ha)).trans (h.loaded a ha)

/-- A change to the rest of the store spares everything. -/
theorem of_eq (base : Nat) (hn : t.namespaces = s.namespaces) (ha : t.artifacts = s.artifacts)
    (hl : t.loaded = s.loaded) : Spares base s t :=
  ⟨hn, by rw [ha], fun _ _ _ => by rw [ha], fun _ h => by rw [hl]; exact h,
    fun _ _ => by rw [hl]⟩

/-- A change to an older artifact, or to one that does not exist, spares the others. -/
theorem of_set {r : Ref Artifact} (a : Artifact) (hr : r.index < base ∨ ¬ s.artifacts.Live r)
    (hn : t.namespaces = s.namespaces) (ha : t.artifacts = s.artifacts.set r a)
    (hl : t.loaded = s.loaded) : Spares base s t := by
  refine ⟨hn, by rw [ha, Arena.size_set], fun r' hr' hlive => ?_,
    fun _ h => by rw [hl]; exact h, fun _ _ => by rw [hl]⟩
  have hne : r ≠ r' := by
    rintro rfl
    rcases hr with hr | hr
    · omega
    · exact hr hlive
  rw [ha, Arena.get_set_of_ne _ _ hne]

/-- To load something new spares what was loaded before. -/
theorem of_alloc (base : Nat) (l : LoadedArtifact) (hn : t.namespaces = s.namespaces)
    (ha : t.artifacts = s.artifacts) (hl : t.loaded = (s.loaded.alloc l).2) : Spares base s t := by
  refine ⟨hn, by rw [ha], fun _ _ _ => by rw [ha], fun h hh => ?_, fun h hh => ?_⟩
  · rw [hl]
    exact Arena.live_alloc_of_live l hh
  · rw [hl]
    exact Arena.get_alloc_of_live l hh

end Spares
end Store
end LiveBuild
