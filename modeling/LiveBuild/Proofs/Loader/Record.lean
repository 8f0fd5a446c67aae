/-
# What a log knows of a loader's artifacts

`Recorded l base log s` says that the log `log` is true of the store `s`, for all
artifacts from the number `base` on, those that are younger than the loader `l`: each of
them has the bytes that were written to it, and if something was made of it, then of the
bytes that had been written when it was first asked for.

Every deed keeps the log true (`Recorded.created`, `Recorded.wrote`, `Recorded.loaded`),
and so does everything that is no deed (`Recorded.of_spares`, `Recorded.finalize`); so a
whole course does (`Recorded.course`).  The materializer is the one that makes images.
-/

import LiveBuild.Proofs.Loader.Course
import Mathlib.Tactic.Set

namespace LiveBuild

/-- An artifact is as a log says. -/
structure Store.Agrees (s : Store) (log : List Deed) (r : Ref Artifact) : Prop where
  bytes : (s.artifacts.get r).bytes = Log.written r log
  unloaded : (s.artifacts.get r).loaded = none → .loaded r ∉ log
  image : ∀ h, (s.artifacts.get r).loaded = some h → .loaded r ∈ log ∧ s.loaded.Live h ∧
    (s.loaded.get h).image = Log.written r (Log.untilLoaded r log)

namespace Store.Agrees

variable {s t : Store} {log : List Deed} {r : Ref Artifact}

/-- Deeds done to other artifacts say nothing about this one. -/
theorem other {d : Deed} (hw : d.writtenTo r = []) (hd : d ≠ .loaded r) (h : s.Agrees log r) :
    s.Agrees (log ++ [d]) r where
  bytes := by
    rw [h.bytes, Log.written_append]
    simp [Log.written, hw]
  unloaded hn := by
    rw [List.mem_append, List.mem_singleton]
    rintro (hm | hm)
    · exact h.unloaded hn hm
    · exact hd hm.symm
  image a ha := by
    obtain ⟨hm, hlive, himage⟩ := h.image a ha
    exact ⟨List.mem_append_left _ hm, hlive, by rw [himage, Log.untilLoaded_append_of_mem hm]⟩

/-- An artifact that keeps its bytes and what was made of it agrees as before. -/
theorem transfer (h : s.Agrees log r)
    (hb : (t.artifacts.get r).bytes = (s.artifacts.get r).bytes)
    (hl : (t.artifacts.get r).loaded = (s.artifacts.get r).loaded)
    (hlive : ∀ h, s.loaded.Live h → t.loaded.Live h)
    (hget : ∀ h, s.loaded.Live h → t.loaded.get h = s.loaded.get h) : t.Agrees log r where
  bytes := by rw [hb, h.bytes]
  unloaded hn := h.unloaded (by rw [← hl, hn])
  image a ha := by
    obtain ⟨hm, hlive', himage⟩ := h.image a (by rw [← hl, ha])
    exact ⟨hm, hlive a hlive', by rw [hget a hlive', himage]⟩

end Store.Agrees

namespace Loader

/-- A log is true of the artifacts from the number `base` on, and the loader owns no others. -/
structure Recorded (l : Loader) (base : Nat) (log : List Deed) (s : Store) : Prop where
  size_le : base ≤ s.artifacts.size
  owned : ∀ name r, l.artifact? name s = some r → base ≤ r.index ∧ s.artifacts.Live r
  unborn : ∀ r, ¬ s.artifacts.Live r → Log.written r log = [] ∧ .loaded r ∉ log
  agrees : ∀ r, base ≤ r.index → s.artifacts.Live r → s.Agrees log r

namespace Recorded

variable {l : Loader} {base : Nat} {s t : Store} {log ds : List Deed}

/-- In the beginning nothing is owned, and nothing was done. -/
theorem new (parent : Host) (m : Materializer) (origin : Store) :
    (Loader.new parent m origin).1.Recorded origin.artifacts.size []
      (Loader.new parent m origin).2 where
  size_le := Nat.le_refl _
  owned name r h := by
    have hempty : (Loader.new parent m origin).1.table (Loader.new parent m origin).2 = Table.empty :=
      Arena.get_alloc_self _ _
    rw [artifact?, hempty, Table.find?_empty] at h
    cases h
  unborn r _ := ⟨rfl, List.not_mem_nil⟩
  agrees r hr hlive := absurd hlive (Nat.not_lt.2 hr)

/-- **What spares the loader's artifacts keeps the log true.** -/
theorem of_spares (h : l.Recorded base log s) (hst : s.Spares base t) :
    l.Recorded base log t where
  size_le := by rw [hst.size]; exact h.size_le
  owned name r hr := by
    rw [artifact?, table, hst.namespaces] at hr
    rw [Arena.Live, hst.size]
    exact h.owned name r hr
  unborn r hr := by
    rw [Arena.Live, hst.size] at hr
    exact h.unborn r hr
  agrees r hr hlive := by
    rw [Arena.Live, hst.size] at hlive
    have hget := hst.artifact r hr hlive
    exact (h.agrees r hr hlive).transfer (by rw [hget]) (by rw [hget]) hst.live hst.loaded

/-- Finalizing artifacts keeps the log true. -/
theorem finalize (h : l.Recorded base log s) (r : Ref Artifact) :
    l.Recorded base log (s.finalize r) where
  size_le := h.size_le
  owned := h.owned
  unborn := h.unborn
  agrees r' hr hlive := (h.agrees r' hr hlive).transfer (s.bytes_finalize r r')
    (s.loaded_finalize r r') (fun _ hh => hh) fun _ _ => rfl

/-- **A new artifact keeps the log true:** nothing was written to it yet. -/
theorem created (h : l.Recorded base log s) (name : String) (kind : Kind) :
    l.Recorded base (log ++ [.created name (s.newArtifact (.new name kind)).1])
      (l.register (s.newArtifact (.new name kind)).1 (s.newArtifact (.new name kind)).2).2 := by
  set r := (s.newArtifact (.new name kind)).1
  set t := (l.register r (s.newArtifact (.new name kind)).2).2
  have hr : ¬ s.artifacts.Live r := Nat.lt_irrefl _
  have hnew : t.artifacts.get r = .new name kind := Arena.get_alloc_self _ _
  constructor
  case size_le => exact Nat.le_succ_of_le h.size_le
  case owned =>
    intro n r' hr'
    rw [artifact?_register] at hr'
    split at hr'
    · obtain rfl := Option.some.inj hr'
      exact ⟨h.size_le, Nat.lt_succ_self _⟩
    · have hold := h.owned n r' hr'
      exact ⟨hold.1, Arena.live_alloc_of_live _ hold.2⟩
  case unborn =>
    intro r' hr'
    have hr'' : ¬ s.artifacts.Live r' := fun hlive => hr' (Arena.live_alloc_of_live _ hlive)
    obtain ⟨hw, hm⟩ := h.unborn r' hr''
    rw [Log.written_append, hw]
    exact ⟨rfl, by simp [hm]⟩
  case agrees =>
    intro r' hbase hlive
    rcases (Arena.live_alloc_iff _ _ _).1 hlive with he | hold
    · obtain ⟨hw, hm⟩ := h.unborn r hr
      rw [show r' = r from he]
      refine ⟨?_, fun _ => by simp [hm], fun a ha => ?_⟩
      · rw [Log.written_append, hw]
        exact congrArg Artifact.bytes hnew
      · cases (congrArg Artifact.loaded hnew).symm.trans ha
    · have hget : t.artifacts.get r' = s.artifacts.get r' := Arena.get_alloc_of_live _ hold
      have hbefore : t.Agrees log r' := (h.agrees r' hbase hold).transfer
        (congrArg Artifact.bytes hget) (congrArg Artifact.loaded hget) (fun _ hh => hh) fun _ _ => rfl
      exact hbefore.other rfl (by simp)

/-- **A write keeps the log true.** -/
theorem wrote (h : l.Recorded base log s) {r : Ref Artifact} (hr : s.artifacts.Live r)
    {bytes : Bytes} {a : Artifact} (hw : (s.artifacts.get r).write bytes = .ok a) :
    l.Recorded base (log ++ [.wrote r bytes]) { s with artifacts := s.artifacts.set r a } := by
  have ha : a = { s.artifacts.get r with bytes := (s.artifacts.get r).bytes ++ bytes } :=
    (Artifact.write_eq_ok_iff.1 hw).2
  set t := { s with artifacts := s.artifacts.set r a }
  constructor
  case size_le => exact h.size_le
  case owned => exact h.owned
  case unborn =>
    intro r' hr'
    have hne : r ≠ r' := fun he => hr' (he ▸ hr)
    obtain ⟨hw', hm⟩ := h.unborn r' hr'
    rw [Log.written_append, hw']
    exact ⟨by simp [Log.written, Deed.writtenTo, hne], by simp [hm]⟩
  case agrees =>
    intro r' hbase hlive
    have hold := h.agrees r' hbase hlive
    by_cases he : r = r'
    · subst he
      have hget : t.artifacts.get r = a := Arena.get_set_self _ _ _
      refine ⟨?_, fun hn => ?_, fun b hb => ?_⟩
      · rw [hget, ha, Log.written_append, ← hold.bytes]
        simp [Log.written, Deed.writtenTo]
      · rw [hget, ha] at hn
        simp [hold.unloaded hn]
      · rw [hget, ha] at hb
        obtain ⟨hm, hlive', himage⟩ := hold.image b hb
        exact ⟨List.mem_append_left _ hm, hlive', by rw [Log.untilLoaded_append_of_mem hm]; exact himage⟩
    · have hget : t.artifacts.get r' = s.artifacts.get r' := Arena.get_set_of_ne _ _ he
      have hbefore : t.Agrees log r' := hold.transfer
        (congrArg Artifact.bytes hget) (congrArg Artifact.loaded hget) (fun _ hh => hh) fun _ _ => rfl
      exact hbefore.other (by simp [Deed.writtenTo, he]) (by simp)

/-- To ask once more for an artifact that was asked for before adds nothing. -/
theorem again (h : l.Recorded base log s) {r : Ref Artifact} (hr : .loaded r ∈ log) :
    l.Recorded base (log ++ [.loaded r]) s := by
  constructor
  case size_le => exact h.size_le
  case owned => exact h.owned
  case unborn =>
    intro r' hr'
    obtain ⟨hw, hm⟩ := h.unborn r' hr'
    have hne : r' ≠ r := fun he => hm (he ▸ hr)
    rw [Log.written_append, hw]
    exact ⟨rfl, by simp [hm, hne]⟩
  case agrees =>
    intro r' hbase hlive
    have hold := h.agrees r' hbase hlive
    by_cases he : r = r'
    · subst he
      refine ⟨?_, fun hn => absurd hr (hold.unloaded hn), fun a ha => ?_⟩
      · rw [hold.bytes, Log.written_append]
        exact (List.append_nil _).symm
      · obtain ⟨hm, hlive', himage⟩ := hold.image a ha
        exact ⟨List.mem_append_left _ hm, hlive', by rw [himage, Log.untilLoaded_append_of_mem hm]⟩
    · exact hold.other rfl (by simpa using he)

/-- An image made of an artifact for the first time shows what was written until then. -/
theorem imaged (h : l.Recorded base log s) {r : Ref Artifact} (hlive : s.artifacts.Live r)
    (hnone : (s.artifacts.get r).loaded = none) (id : Nat) :
    l.Recorded base (log ++ [.loaded r])
      (s.made (.image id) r (Materializer.imageOf (s.callFor r))) := by
  set image := Materializer.imageOf (s.callFor r) with himage
  set t := s.made (.image id) r image
  -- only what is said of `r` changes: the image is made of what was written until now
  constructor
  case size_le => exact h.size_le
  case owned => exact h.owned
  case unborn =>
    intro r' hr'
    obtain ⟨hw, hm⟩ := h.unborn r' hr'
    have hne : r' ≠ r := fun he => hr' (he ▸ hlive)
    rw [Log.written_append, hw]
    exact ⟨rfl, by simp [hm, hne]⟩
  case agrees =>
    intro r' hbase' hlive'
    have hold := h.agrees r' hbase' hlive'
    by_cases he : r = r'
    · subst he
      have hget : t.artifacts.get r = { s.artifacts.get r with loaded := some (s.loaded.alloc image).1 } :=
        Arena.get_modify_self _ _ _
      have hnew : t.loaded.get (s.loaded.alloc image).1 = image := Arena.get_alloc_self _ _
      refine ⟨?_, fun hn => ?_, fun a ha => ?_⟩
      · rw [hget, Log.written_append, ← hold.bytes]
        exact (List.append_nil _).symm
      · rw [hget] at hn
        cases hn
      · rw [hget] at ha
        obtain rfl := Option.some.inj ha
        refine ⟨by simp, Arena.live_alloc_self _ _, ?_⟩
        rw [hnew, himage, Log.untilLoaded_append_loaded (hold.unloaded hnone), ← hold.bytes]
        rfl
    · have hget : t.artifacts.get r' = s.artifacts.get r' := Arena.get_modify_of_ne _ _ he
      have hbefore : t.Agrees log r' := hold.transfer (congrArg Artifact.bytes hget)
        (congrArg Artifact.loaded hget) (fun _ hh => Arena.live_alloc_of_live _ hh)
        fun _ hh => Arena.get_alloc_of_live _ hh
      exact hbefore.other rfl (by simpa using he)

/-- **Asking for an artifact keeps the log true.** -/
theorem loaded (h : l.Recorded base log s) (id : Nat) {name : String} {r : Ref Artifact}
    (hr : l.artifact? name s = some r) :
    l.Recorded base (log ++ [.loaded r])
      ((Store.materialize (.image id) r).attempt s).2 := by
  obtain ⟨hbase, hlive⟩ := h.owned name r hr
  rcases Store.materialize_cases (.image id) r s with
    ⟨a, ha, hx⟩ | ⟨e, -, he, -⟩ | ⟨image, hnone, himage, hx⟩
  · rw [hx]
    exact h.again ((h.agrees r hbase hlive).image a ha).1
  · cases he
  · rw [hx]
    obtain rfl := Except.ok.inj himage
    exact h.imaged hlive hnone id

/-- **Every step keeps the log true,** with the deeds of the step behind it. -/
theorem step (h : l.Recorded base log s) {id : Nat} (hl : l.materializer = .image id)
    (hst : l.Step base s ds t) : l.Recorded base (log ++ ds) t := by
  cases hst with
  | spared hst =>
    rw [List.append_nil]
    exact h.of_spares hst
  | finalized r =>
    rw [List.append_nil]
    exact h.finalize r
  | created name kind => exact h.created name kind
  | wrote hr hw => exact h.wrote hr hw
  | loaded hr =>
    rw [hl]
    exact h.loaded id hr

/-- **A whole course keeps the log true.** -/
theorem course (h : l.Recorded base log s) {id : Nat} (hl : l.materializer = .image id)
    (hst : l.Course base s ds t) : l.Recorded base (log ++ ds) t := by
  induction hst with
  | nil => rwa [List.append_nil]
  | snoc _ hs ih =>
    rw [← List.append_assoc]
    exact ih.step hl hs

end Recorded
end Loader
end LiveBuild
