/-
# Handles that are kept apart

What is made of an artifact is an object of its own, and the artifact keeps it.  In a sound
store (`Store.Sound`) what is owned exists, what was made of an artifact exists, and nothing
was made of two artifacts.

Artifacts and loaders may be made, artifacts may be registered, written, finished and
materialized, and a host may load something: the store stays sound.
-/

import LiveBuild.Proofs.Host.Apart
import LiveBuild.Proofs.Store.Continuation
import Mathlib.Tactic.Set

namespace LiveBuild
namespace Store

/-- Owned artifacts exist, and every artifact has a handle of its own, if it has one. -/
structure Sound (s : Store) : Prop where
  owned : ∀ ns name r, (s.namespaces.get ns).find? name = some r →
    s.namespaces.Live ns ∧ s.artifacts.Live r
  handle : ∀ r h, s.artifacts.Live r → (s.artifacts.get r).loaded = some h → s.loaded.Live h
  apart : ∀ r r' h, s.artifacts.Live r → s.artifacts.Live r' →
    (s.artifacts.get r).loaded = some h → (s.artifacts.get r').loaded = some h → r = r'

/-- What spares all artifacts lets them go on. -/
theorem Spares.continues {s t : Store} (h : s.Spares 0 t) : s.Continues t := by
  refine ⟨fun r hr => ⟨?_, ?_⟩, fun a ha => ⟨h.live a ha, h.loaded a ha⟩⟩
  · rw [Arena.Live, h.size]
    exact hr
  · rw [h.artifact r (Nat.zero_le _) hr]
    exact .refl _

namespace Sound

variable {s t : Store}

/-- Nothing is owned and nothing kept in the empty store. -/
theorem empty : Sound Store.empty := by
  refine ⟨fun ns name r hr => ?_, fun r h hr => ?_, fun r r' h hr => ?_⟩
  · cases hr
  · exact absurd hr (Nat.not_lt_zero _)
  · exact absurd hr (Nat.not_lt_zero _)

/-- What a loader owns exists, and so does the loader's namespace. -/
theorem artifact? (h : s.Sound) {l : Loader} {name : String} {r : Ref Artifact}
    (hr : l.artifact? name s = some r) : s.namespaces.Live l.owned ∧ s.artifacts.Live r :=
  h.owned l.owned name r hr

/-- A change after which every artifact has the handle that it had. -/
theorem of_loaded (h : s.Sound) (hn : t.namespaces = s.namespaces)
    (hsize : t.artifacts.size = s.artifacts.size)
    (hloaded : ∀ r, s.artifacts.Live r → (t.artifacts.get r).loaded = (s.artifacts.get r).loaded)
    (hlive : ∀ a, s.loaded.Live a → t.loaded.Live a) : t.Sound := by
  have hold : ∀ r, t.artifacts.Live r → s.artifacts.Live r := fun r hr => by
    rwa [Arena.Live, hsize] at hr
  refine ⟨fun ns name r hr => ?_, fun r a hr ha => ?_, fun r r' a hr hr' ha ha' => ?_⟩
  · rw [hn] at hr ⊢
    obtain ⟨hlive, hr⟩ := h.owned ns name r hr
    exact ⟨hlive, by rwa [Arena.Live, hsize]⟩
  · rw [hloaded r (hold r hr)] at ha
    exact hlive a (h.handle r a (hold r hr) ha)
  · rw [hloaded r (hold r hr)] at ha
    rw [hloaded r' (hold r' hr')] at ha'
    exact h.apart r r' a (hold r hr) (hold r' hr') ha ha'

/-- A store stays sound where its artifacts are left alone. -/
theorem spares (h : s.Sound) (hst : s.Spares 0 t) : t.Sound :=
  h.of_loaded hst.namespaces hst.size
    (fun r hr => by rw [hst.artifact r (Nat.zero_le _) hr]) hst.live

/-- A store stays sound when an artifact is made. -/
theorem newArtifact (h : s.Sound) (name : String) (kind : Kind) :
    (s.newArtifact (.new name kind)).2.Sound := by
  -- what is new was not materialized yet
  have hold : ∀ r a, (s.newArtifact (.new name kind)).2.artifacts.Live r →
      ((s.newArtifact (.new name kind)).2.artifacts.get r).loaded = some a →
        s.artifacts.Live r ∧ (s.artifacts.get r).loaded = some a := by
    intro r a hr ha
    rcases (Arena.live_alloc_iff _ _ _).1 hr with rfl | hr
    · exact absurd ha (by rw [Store.newArtifact, Arena.get_alloc_self]; simp [Artifact.new])
    · rw [Store.newArtifact, Arena.get_alloc_of_live _ hr] at ha
      exact ⟨hr, ha⟩
  refine ⟨fun ns n r hr => ?_, fun r a hr ha => ?_, fun r r' a hr hr' ha ha' => ?_⟩
  · obtain ⟨hlive, hr⟩ := h.owned ns n r hr
    exact ⟨hlive, Arena.live_alloc_of_live _ hr⟩
  · obtain ⟨hr, ha⟩ := hold r a hr ha
    exact h.handle r a hr ha
  · obtain ⟨hr, ha⟩ := hold r a hr ha
    obtain ⟨hr', ha'⟩ := hold r' a hr' ha'
    exact h.apart r r' a hr hr' ha ha'

/-- A change of the namespaces after which owned is what exists. -/
theorem of_namespaces (h : s.Sound) (ha : t.artifacts = s.artifacts) (hl : t.loaded = s.loaded)
    (howned : ∀ ns name r, (t.namespaces.get ns).find? name = some r →
      t.namespaces.Live ns ∧ s.artifacts.Live r) : t.Sound := by
  refine ⟨fun ns name r hr => ?_, ?_, ?_⟩
  · rw [ha]
    exact howned ns name r hr
  · rw [ha, hl]
    exact h.handle
  · rw [ha]
    exact h.apart

/-- A store stays sound when a loader is made, which owns nothing yet. -/
theorem newLoader (h : s.Sound) (parent : Host) (m : Materializer) :
    (Loader.new parent m s).2.Sound := by
  refine h.of_namespaces rfl rfl fun ns name r hr => ?_
  change ((s.namespaces.alloc Table.empty).2.get ns).find? name = some r at hr
  rw [Arena.get_alloc] at hr
  split at hr
  · cases hr
  · obtain ⟨hlive, hr⟩ := h.owned ns name r hr
    exact ⟨Arena.live_alloc_of_live _ hlive, hr⟩

/-- A store stays sound when an artifact that exists is registered. -/
theorem register (h : s.Sound) {l : Loader} (hl : s.namespaces.Live l.owned) {r : Ref Artifact}
    (hr : s.artifacts.Live r) : (l.register r s).2.Sound := by
  refine h.of_namespaces rfl rfl fun ns name r' hr' => ?_
  change ((s.namespaces.modify l.owned _).get ns).find? name = some r' at hr'
  by_cases he : l.owned = ns
  · subst he
    refine ⟨hl, ?_⟩
    rw [Arena.get_modify_self, Table.find?_insert] at hr'
    split at hr'
    · obtain rfl := Option.some.inj hr'
      exact hr
    · exact (h.owned l.owned name r' hr').2
  · rw [Arena.get_modify_of_ne _ _ he] at hr'
    exact h.owned ns name r' hr'

/-- **What is made of an artifact is made of no other.** -/
theorem made (h : s.Sound) {r : Ref Artifact} (m : Materializer) (l : LoadedArtifact) :
    (s.made m r l).Sound := by
  set new := (s.loaded.alloc l).1
  have hloaded : ∀ r', ((s.made m r l).artifacts.get r').loaded =
      if r = r' then some new else (s.artifacts.get r').loaded := by
    intro r'
    rw [Store.made, Arena.modify, Arena.get_set]
    split <;> rfl
  -- the new handle is none that an artifact had
  have hnew : ∀ r', s.artifacts.Live r' → (s.artifacts.get r').loaded ≠ some new :=
    fun r' hr' he => Arena.alloc_ne_of_live l (h.handle r' new hr' he) rfl
  refine ⟨h.owned, fun r' a hr' ha => ?_, fun r₁ r₂ a h₁ h₂ ha₁ ha₂ => ?_⟩
  · rw [hloaded] at ha
    split at ha
    · obtain rfl := Option.some.inj ha
      exact Arena.live_alloc_self _ _
    · exact Arena.live_alloc_of_live _ (h.handle r' a hr' ha)
  · rw [hloaded] at ha₁ ha₂
    split at ha₁ <;> split at ha₂
    · rename_i he₁ he₂
      exact he₁.symm.trans he₂
    · obtain rfl := Option.some.inj ha₁
      exact absurd ha₂ (hnew r₂ h₂)
    · obtain rfl := Option.some.inj ha₂
      exact absurd ha₁ (hnew r₁ h₁)
    · exact h.apart r₁ r₂ a h₁ h₂ ha₁ ha₂

/-- A store stays sound when an artifact is materialized: what it keeps is loaded. -/
theorem materialize (h : s.Sound) (m : Materializer) (r : Ref Artifact) :
    ((Store.materialize m r).attempt s).2.Sound := by
  rcases materialize_cases m r s with ⟨a, -, hx⟩ | ⟨e, -, -, hx⟩ | ⟨l, -, -, hx⟩ <;> rw [hx]
  · exact h
  · exact h.of_loaded rfl rfl (fun _ _ => rfl) fun _ ha => ha
  · exact h.made m l

/-- A store stays sound when a sink is written to. -/
theorem write (h : s.Sound) (sink : Sink) (bytes : Bytes) :
    ((sink.write bytes).attempt s).2.Sound := by
  obtain ⟨artifacts, units, hx, hsize, hloaded⟩ := sink.store_write bytes s
  rw [hx]
  exact h.of_loaded rfl hsize (fun r _ => hloaded r) fun _ ha => ha

/-- A store stays sound when an artifact is finished. -/
theorem finalize (h : s.Sound) (r : Ref Artifact) : (s.finalize r).Sound :=
  h.of_loaded rfl rfl (fun r' _ => loaded_finalize s r r') fun _ ha => ha

end Sound
end Store
end LiveBuild
