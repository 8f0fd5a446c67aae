/-
# What an object is called

A source unit has a name, and an artifact has a name and a kind.  They are what an object is
known by, and no operation changes them: units are written, artifacts are written, finalized
and loaded, but whatever there is stays there, under its name and of its kind
(`Store.KeepsIdentities`).
-/

import LiveBuild.Proofs.Store.Continuation

namespace LiveBuild

/-- A unit that is written keeps its name. -/
theorem SourceUnit.name_of_write {u v : SourceUnit} {bytes : Bytes} (h : u.write bytes = .ok v) :
    v.name = u.name := by
  unfold SourceUnit.write at h
  split at h
  · cases h
  · unfold SourceUnit.writeText at h
    split at h
    · rw [← Except.ok.inj h]
    · cases h

namespace Store

/-- Every unit and every artifact is still there, under its name and of its kind. -/
structure KeepsIdentities (s t : Store) : Prop where
  unit : ∀ u, s.units.Live u → t.units.Live u ∧ (t.units.get u).name = (s.units.get u).name
  artifact : ∀ a, s.artifacts.Live a → t.artifacts.Live a ∧
    (t.artifacts.get a).name = (s.artifacts.get a).name ∧
    (t.artifacts.get a).kind = (s.artifacts.get a).kind

namespace KeepsIdentities

variable {s t u : Store}

theorem refl (s : Store) : s.KeepsIdentities s :=
  ⟨fun _ h => ⟨h, rfl⟩, fun _ h => ⟨h, rfl, rfl⟩⟩

theorem trans (h : s.KeepsIdentities t) (h' : t.KeepsIdentities u) : s.KeepsIdentities u where
  unit r hr := by
    obtain ⟨hlive, hname⟩ := h.unit r hr
    obtain ⟨hlive', hname'⟩ := h'.unit r hlive
    exact ⟨hlive', hname'.trans hname⟩
  artifact r hr := by
    obtain ⟨hlive, hname, hkind⟩ := h.artifact r hr
    obtain ⟨hlive', hname', hkind'⟩ := h'.artifact r hlive
    exact ⟨hlive', hname'.trans hname, hkind'.trans hkind⟩

/-- A change to the rest of the store keeps all identities. -/
theorem of_eq (hu : t.units = s.units) (ha : t.artifacts = s.artifacts) : s.KeepsIdentities t := by
  refine ⟨fun r hr => ?_, fun r hr => ?_⟩
  · rw [hu]
    exact ⟨hr, rfl⟩
  · rw [ha]
    exact ⟨hr, rfl, rfl⟩

/-- A unit is made beside those that there are. -/
theorem of_newUnit (v : SourceUnit) (hu : t.units = (s.units.alloc v).2)
    (ha : t.artifacts = s.artifacts) : s.KeepsIdentities t := by
  refine ⟨fun r hr => ?_, fun r hr => ?_⟩
  · rw [hu, Arena.get_alloc_of_live v hr]
    exact ⟨Arena.live_alloc_of_live v hr, rfl⟩
  · rw [ha]
    exact ⟨hr, rfl, rfl⟩

/-- Artifacts that go on keep their identities. -/
theorem of_continues (hu : t.units = s.units) (h : s.Continues t) : s.KeepsIdentities t := by
  refine ⟨fun r hr => ?_, fun r hr => ?_⟩
  · rw [hu]
    exact ⟨hr, rfl⟩
  · obtain ⟨hlive, hone⟩ := h.artifact r hr
    exact ⟨hlive, hone.name, hone.kind⟩

/-- A unit is replaced by one of its name. -/
theorem of_setUnit {r : Ref SourceUnit} {v : SourceUnit} (hv : v.name = (s.units.get r).name)
    (hu : t.units = s.units.set r v) (ha : t.artifacts = s.artifacts) : s.KeepsIdentities t := by
  refine ⟨fun r' hr => ?_, fun r' hr => ?_⟩
  · rw [hu, Arena.get_set]
    refine ⟨hr, ?_⟩
    split
    · rename_i he
      rw [hv, he]
    · rfl
  · rw [ha]
    exact ⟨hr, rfl, rfl⟩

/-- A write keeps all identities, also one that is refused. -/
theorem write (sink : Sink) (bytes : Bytes) (s : Store) :
    s.KeepsIdentities ((sink.write bytes).attempt s).2 := by
  have hcontinues := Continues.write sink bytes s
  rcases sink.write_cases bytes s with ⟨e, hx⟩ | ⟨r, a, -, -, hx⟩ | ⟨u, v, -, hw, hx⟩ <;>
    rw [hx] at hcontinues ⊢
  · exact .refl s
  · exact .of_continues rfl hcontinues
  · exact .of_setUnit (SourceUnit.name_of_write hw) rfl rfl

/-- To finish artifacts renames nothing. -/
theorem finalizeAll (s : Store) (rs : List (Ref Artifact)) : s.KeepsIdentities (s.finalizeAll rs) :=
  .of_continues (by rw [finalizeAll_eq]) (.finalizeAll s rs)

/-- To materialize an artifact renames nothing. -/
theorem materialize (m : Materializer) (r : Ref Artifact) (s : Store) :
    s.KeepsIdentities ((Store.materialize m r).attempt s).2 := by
  have hcontinues := Continues.materialize m r s
  obtain ⟨artifacts, loaded, attempts, hx⟩ := store_materialize m r s
  rw [hx] at hcontinues ⊢
  exact .of_continues rfl hcontinues

end KeepsIdentities
end Store
end LiveBuild
