/-
# What becomes of an artifact

An artifact that exists goes on existing under its name and of its kind, and its life has one
direction:

| | may become | stays |
| --- | --- | --- |
| bytes | longer at their end | as they are, once the artifact is finished |
| finished | finished | finished, once it is |
| materialized | what was made of it | that, once something was made |

and what was loaded never changes.  No operation on the store goes another way
(`Store.Continues`), not even one that fails.  A write is taken or refused as a whole
(`Sink.write_cases`), and to a finished artifact it is refused (`writeArtifact_of_finished`).
-/

import LiveBuild.FileHandle
import LiveBuild.Proofs.Store.Materialization

namespace LiveBuild

/-- **Three things can happen when bytes are written to a sink:** it takes them, or it refuses
them and the store is as it was. -/
theorem Sink.write_cases (sink : Sink) (bytes : Bytes) (s : Store) :
    (∃ e, (sink.write bytes).attempt s = (.error e, s)) ∨
      (∃ r a, sink = .artifact r ∧ (s.artifacts.get r).write bytes = .ok a ∧
        (sink.write bytes).attempt s = (.ok (), { s with artifacts := s.artifacts.set r a })) ∨
      ∃ u v, sink = .source u ∧ (s.units.get u).write bytes = .ok v ∧
        (sink.write bytes).attempt s = (.ok (), { s with units := s.units.set u v }) := by
  cases sink with
  | artifact r =>
    cases hw : (s.artifacts.get r).write bytes with
    | error e => exact .inl ⟨e, by simp [Action.attempt, write, Store.writeArtifact, hw]⟩
    | ok a =>
      exact .inr (.inl ⟨r, a, rfl, hw, by simp [Action.attempt, write, Store.writeArtifact, hw]⟩)
  | source u =>
    cases hw : (s.units.get u).write bytes with
    | error e => exact .inl ⟨e, by simp [Action.attempt, write, Store.writeUnit, hw]⟩
    | ok v =>
      exact .inr (.inr ⟨u, v, rfl, hw, by simp [Action.attempt, write, Store.writeUnit, hw]⟩)

/-- **What a write changes:** artifacts and units, but not what was made of any artifact. -/
theorem Sink.store_write (sink : Sink) (bytes : Bytes) (s : Store) :
    ∃ artifacts units, ((sink.write bytes).attempt s).2 = { s with artifacts, units } ∧
      artifacts.size = s.artifacts.size ∧
        ∀ r, (artifacts.get r).loaded = (s.artifacts.get r).loaded := by
  rcases sink.write_cases bytes s with ⟨e, hx⟩ | ⟨r, a, -, hw, hx⟩ | ⟨u, v, -, -, hx⟩ <;> rw [hx]
  · exact ⟨s.artifacts, s.units, rfl, rfl, fun _ => rfl⟩
  · refine ⟨_, s.units, rfl, rfl, fun r' => ?_⟩
    obtain ⟨-, rfl⟩ := Artifact.write_eq_ok_iff.1 hw
    rw [Arena.get_set]
    split
    · rename_i he
      rw [← he]
    · rfl
  · exact ⟨s.artifacts, _, rfl, rfl, fun _ => rfl⟩

/-- An artifact at two moments, the second one later. -/
structure Artifact.Continues (a b : Artifact) : Prop where
  name : b.name = a.name
  kind : b.kind = a.kind
  bytes : a.bytes <+: b.bytes
  finished : a.isFinalized = true → b.isFinalized = true ∧ b.bytes = a.bytes
  loaded : ∀ h, a.loaded = some h → b.loaded = some h

namespace Artifact

variable {a b c : Artifact}

theorem Continues.refl (a : Artifact) : a.Continues a :=
  ⟨rfl, rfl, List.prefix_refl _, fun h => ⟨h, rfl⟩, fun _ h => h⟩

theorem Continues.trans (h : a.Continues b) (h' : b.Continues c) : a.Continues c where
  name := h'.name.trans h.name
  kind := h'.kind.trans h.kind
  bytes := h.bytes.trans h'.bytes
  finished hfinished := by
    obtain ⟨hb, hbytes⟩ := h.finished hfinished
    obtain ⟨hc, hbytes'⟩ := h'.finished hb
    exact ⟨hc, hbytes'.trans hbytes⟩
  loaded handle hloaded := h'.loaded handle (h.loaded handle hloaded)

/-- A write that is not refused puts bytes at the end. -/
theorem Continues.of_write {bytes : Bytes} (h : a.write bytes = .ok b) : a.Continues b := by
  obtain ⟨hopen, rfl⟩ := write_eq_ok_iff.1 h
  exact ⟨rfl, rfl, List.prefix_append _ _, fun hfinished => absurd hfinished (by simp [hopen]),
    fun _ h => h⟩

/-- An artifact goes on when it is finished. -/
theorem Continues.finalize (a : Artifact) : a.Continues a.finalize :=
  ⟨rfl, rfl, List.prefix_refl _, fun _ => ⟨rfl, rfl⟩, fun _ h => h⟩

/-- Something is made of an artifact of which nothing was made. -/
theorem Continues.of_made (h : a.loaded = none) (handle : Ref LoadedArtifact) :
    a.Continues { a with loaded := some handle } := by
  refine ⟨rfl, rfl, List.prefix_refl _, fun hfinished => ⟨hfinished, rfl⟩, fun h' hh => ?_⟩
  rw [h] at hh
  cases hh

end Artifact

namespace Store

/-- To finish artifacts changes artifacts alone. -/
theorem finalizeAll_eq (s : Store) (rs : List (Ref Artifact)) :
    s.finalizeAll rs = { s with artifacts := (s.finalizeAll rs).artifacts } := by
  induction rs generalizing s with
  | nil => rfl
  | cons r rs ih => exact ih (s.finalize r)

/-- Every artifact goes on, and what was loaded is as it was. -/
structure Continues (s t : Store) : Prop where
  artifact : ∀ r, s.artifacts.Live r →
    t.artifacts.Live r ∧ (s.artifacts.get r).Continues (t.artifacts.get r)
  handle : ∀ h, s.loaded.Live h → t.loaded.Live h ∧ t.loaded.get h = s.loaded.get h

namespace Continues

variable {s t u : Store}

theorem refl (s : Store) : s.Continues s := ⟨fun _ h => ⟨h, .refl _⟩, fun _ h => ⟨h, rfl⟩⟩

theorem trans (h : s.Continues t) (h' : t.Continues u) : s.Continues u where
  artifact r hr := by
    obtain ⟨hlive, hone⟩ := h.artifact r hr
    obtain ⟨hlive', hone'⟩ := h'.artifact r hlive
    exact ⟨hlive', hone.trans hone'⟩
  handle a ha := by
    obtain ⟨hlive, hget⟩ := h.handle a ha
    obtain ⟨hlive', hget'⟩ := h'.handle a hlive
    exact ⟨hlive', hget'.trans hget⟩

/-- What exists goes on existing. -/
theorem live (h : s.Continues t) {r : Ref Artifact} (hr : s.artifacts.Live r) :
    t.artifacts.Live r := (h.artifact r hr).1

/-- A change to the rest of the store. -/
theorem of_eq (ha : t.artifacts = s.artifacts) (hl : t.loaded = s.loaded) : s.Continues t := by
  refine ⟨fun r hr => ?_, fun h hh => ?_⟩
  · rw [ha]
    exact ⟨hr, .refl _⟩
  · rw [hl]
    exact ⟨hh, rfl⟩

/-- One artifact goes on, and everything else is as it was. -/
theorem of_setArtifact {r : Ref Artifact} {a : Artifact} (h : (s.artifacts.get r).Continues a)
    (ha : t.artifacts = s.artifacts.set r a) (hl : t.loaded = s.loaded) : s.Continues t := by
  refine ⟨fun r' hr => ?_, fun h hh => ?_⟩
  · rw [ha, Arena.get_set]
    refine ⟨hr, ?_⟩
    split
    · rename_i he
      rw [← he]
      exact h
    · exact .refl _
  · rw [hl]
    exact ⟨hh, rfl⟩

/-- An artifact is made beside those that there are. -/
theorem of_newArtifact (a : Artifact) (ha : t.artifacts = (s.artifacts.alloc a).2)
    (hl : t.loaded = s.loaded) : s.Continues t := by
  refine ⟨fun r hr => ?_, fun h hh => ?_⟩
  · rw [ha, Arena.get_alloc_of_live a hr]
    exact ⟨Arena.live_alloc_of_live a hr, .refl _⟩
  · rw [hl]
    exact ⟨hh, rfl⟩

/-- Something is loaded beside what there is. -/
theorem of_newLoaded (l : LoadedArtifact) (ha : t.artifacts = s.artifacts)
    (hl : t.loaded = (s.loaded.alloc l).2) : s.Continues t := by
  refine ⟨fun r hr => ?_, fun h hh => ?_⟩
  · rw [ha]
    exact ⟨hr, .refl _⟩
  · rw [hl, Arena.get_alloc_of_live l hh]
    exact ⟨Arena.live_alloc_of_live l hh, rfl⟩

/-! ### Operations -/

/-- A write, also one that is refused. -/
theorem write (sink : Sink) (bytes : Bytes) (s : Store) :
    s.Continues ((sink.write bytes).attempt s).2 := by
  rcases sink.write_cases bytes s with ⟨e, hx⟩ | ⟨r, a, -, hw, hx⟩ | ⟨u, v, -, -, hx⟩
  · rw [hx]
    exact .refl s
  · rw [hx]
    exact .of_setArtifact (.of_write hw) rfl rfl
  · rw [hx]
    exact .of_eq rfl rfl

/-- Every artifact goes on when one of them is finished. -/
theorem finalize (s : Store) (r : Ref Artifact) : s.Continues (s.finalize r) :=
  .of_setArtifact (.finalize _) rfl rfl

/-- Every artifact goes on when some of them are finished. -/
theorem finalizeAll (s : Store) (rs : List (Ref Artifact)) : s.Continues (s.finalizeAll rs) := by
  induction rs generalizing s with
  | nil => exact .refl s
  | cons r rs ih => exact (finalize s r).trans (ih (s.finalize r))

/-- Something is made of an artifact of which nothing was made. -/
theorem made {r : Ref Artifact} (hnone : (s.artifacts.get r).loaded = none) (m : Materializer)
    (l : LoadedArtifact) : s.Continues (s.made m r l) := by
  have hloaded : s.Continues { s with loaded := (s.loaded.alloc l).2 } := .of_newLoaded l rfl rfl
  exact hloaded.trans (.of_setArtifact (.of_made hnone (s.loaded.alloc l).1) rfl rfl)

/-- A call of a materializer, also one that fails. -/
theorem materialize (m : Materializer) (r : Ref Artifact) (s : Store) :
    s.Continues ((Store.materialize m r).attempt s).2 := by
  rcases materialize_cases m r s with ⟨h, -, hx⟩ | ⟨e, -, -, hx⟩ | ⟨l, hnone, -, hx⟩ <;> rw [hx]
  · exact .refl s
  · exact .of_eq rfl rfl
  · exact .made hnone m l

end Continues

/-- **A write to a finished artifact is refused,** and the store is as it was. -/
theorem writeArtifact_of_finished {s : Store} {r : Ref Artifact}
    (h : (s.artifacts.get r).isFinalized = true) (bytes : Bytes) :
    (writeArtifact r bytes).attempt s =
      (.error (.artifactFinalized (s.artifacts.get r).name), s) := by
  have hrefused : (s.artifacts.get r).write bytes =
      .error (.artifactFinalized (s.artifacts.get r).name) := if_pos h
  simp only [Action.attempt, writeArtifact, hrefused]

/-- To finish some artifacts finishes each of them, and no other. -/
theorem get_finalizeAll (s : Store) (rs : List (Ref Artifact)) (r : Ref Artifact) :
    (s.finalizeAll rs).artifacts.get r =
      if r ∈ rs then (s.artifacts.get r).finalize else s.artifacts.get r := by
  induction rs generalizing s with
  | nil => rfl
  | cons r' rs ih =>
    refine (ih (s.finalize r')).trans ?_
    by_cases he : r' = r
    · subst he
      rw [finalize, Arena.get_modify_self, if_pos List.mem_cons_self]
      split <;> rfl
    · rw [finalize, Arena.get_modify_of_ne _ _ he]
      simp [Ne.symm he]

/-- What is finished among others is finished. -/
theorem isFinalized_finalizeAll {rs : List (Ref Artifact)} {r : Ref Artifact} (hr : r ∈ rs)
    (s : Store) : ((s.finalizeAll rs).artifacts.get r).isFinalized = true := by
  rw [get_finalizeAll, if_pos hr]
  rfl

end Store
end LiveBuild
