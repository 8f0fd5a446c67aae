/-
# Outputs of a build, name by name

What is asked for under one name concerns that name alone.  `Touches m names s t` says that
between two stores nothing happened but outputs under some names, and `Made m name bytes s`
that the loader owns a compiled artifact under a name that holds these bytes and was not
loaded yet.

Asking for a new output and writing it touches its own name and makes it (`run_output`); what
was made before stays made (`Made.of_touches`).

Units with different names, some of which come to an output, are compiled one after the other
without getting in each other's way (`Yields.step`), and in which order makes no difference to
what the loader owns in the end (`Yields.artifact?_perm`).
-/

import LiveBuild.Proofs.FileManager.Call
import LiveBuild.Proofs.Toolchain.Sequence
import Mathlib.Data.List.Nodup
import Mathlib.Tactic.Set

namespace LiveBuild
namespace FileManager

/-- Nothing but outputs under some names was changed. -/
structure Touches (m : FileManager) (names : List String) (s t : Store) : Prop where
  units : t.units = s.units
  files : t.files = s.files
  queue : (m.asked t).queue = (m.asked s).queue
  asked : ∀ n, n ∉ names → (m.asked t).artifacts.find? n = (m.asked s).artifacts.find? n
  owned : ∀ n, n ∉ names → m.loader.artifact? n t = m.loader.artifact? n s
  live : ∀ a, s.artifacts.Live a → t.artifacts.Live a
  artifact : ∀ a, s.artifacts.Live a → t.artifacts.get a = s.artifacts.get a

/-- A compiled output that was not loaded yet. -/
structure Made (m : FileManager) (name : String) (bytes : Bytes) (a : Ref Artifact) (s : Store) :
    Prop where
  owned : m.loader.artifact? name s = some a
  live : s.artifacts.Live a
  artifact : s.artifacts.get a = ⟨name, .compiled, bytes, false, none⟩

variable {m : FileManager} {names names' : List String} {s t u : Store}

theorem Touches.refl (m : FileManager) (s : Store) : m.Touches [] s s :=
  ⟨rfl, rfl, rfl, fun _ _ => rfl, fun _ _ => rfl, fun _ h => h, fun _ _ => rfl⟩

/-- What touches some names and then others touches both. -/
theorem Touches.trans (h : m.Touches names s t) (h' : m.Touches names' t u) :
    m.Touches (names ++ names') s u where
  units := h'.units.trans h.units
  files := h'.files.trans h.files
  queue := h'.queue.trans h.queue
  asked n hn := by
    rw [List.mem_append, not_or] at hn
    rw [h'.asked n hn.2, h.asked n hn.1]
  owned n hn := by
    rw [List.mem_append, not_or] at hn
    rw [h'.owned n hn.2, h.owned n hn.1]
  live a ha := h'.live a (h.live a ha)
  artifact a ha := by rw [h'.artifact a (h.live a ha), h.artifact a ha]

/-- To run a program touches no output. -/
theorem touches_execute (m : FileManager) (program : Path) (arguments : List String)
    (stdin : Bytes) (s : Store) : m.Touches [] s (s.execute program arguments stdin).2 := by
  obtain ⟨processes, hx⟩ := s.store_execute program arguments stdin
  rw [hx]
  exact ⟨rfl, rfl, rfl, fun _ _ => rfl, fun _ _ => rfl, fun _ h => h, fun _ _ => rfl⟩

/-- To take the sources asked for touches no output, if there are none. -/
theorem touches_takeGenerated (hqueue : (m.asked s).queue = []) :
    m.Touches [] s (m.takeGenerated s).2 := by
  have hasked : m.asked (m.takeGenerated s).2 = { m.asked s with queue := [] } :=
    Arena.get_modify_self _ _ _
  refine ⟨rfl, rfl, ?_, fun _ _ => ?_, fun _ _ => rfl, fun _ h => h, fun _ _ => rfl⟩
  · rw [hasked, hqueue]
  · rw [hasked]

/-- What was made stays made while other names are touched. -/
theorem Made.of_touches {name : String} {bytes : Bytes} {a : Ref Artifact}
    (h : m.Made name bytes a s) (hst : m.Touches names s t) (hname : name ∉ names) :
    m.Made name bytes a t where
  owned := by rw [hst.owned name hname, h.owned]
  live := hst.live a h.live
  artifact := by rw [hst.artifact a h.live, h.artifact]

/-- A new output touches its own name. -/
theorem touches_newOutput (m : FileManager) (name : String) (kind : Kind) (s : Store) :
    m.Touches [name] s (m.newOutput name kind s) where
  units := rfl
  files := rfl
  queue := by rw [asked_newOutput]
  asked n hn := by
    rw [find?_artifacts_newOutput, if_neg (Ne.symm (mt List.mem_singleton.2 hn))]
  owned n hn := by rw [artifact?_newOutput, if_neg (Ne.symm (mt List.mem_singleton.2 hn))]
  live _ ha := Arena.live_alloc_of_live _ ha
  artifact _ ha := Arena.get_alloc_of_live _ ha

/-- **A new output, written at once,** touches its own name and is made. -/
theorem run_output (b : BuildState) (location : Location) {name : String}
    (sibling : Option FileHandle) (bytes : Bytes)
    (hfresh : (m.asked b.store).artifacts.find? name = none) :
    ∃ sink b₁ a t,
      (Interaction.outputFor location name .compiled sibling).run m b = (.finished sink, b₁) ∧
        (Interaction.write sink bytes).run m b₁ = (.finished (), ⟨t, b.reported⟩) ∧
        m.Touches [name] b.store t ∧ m.Made name bytes a t := by
  set s := b.store
  set s₁ := m.newOutput name .compiled s
  set a := (s.artifacts.alloc (.new name .compiled)).1
  set t : Store := { s₁ with artifacts := s₁.artifacts.set a ⟨name, .compiled, bytes, false, none⟩ }
  have hnew : m.sink? name .compiled s = none := by
    rw [sink?, if_neg (by decide), hfresh]
    rfl
  have hout : m.outputFor location name .compiled sibling s = (.artifact a, s₁) :=
    outputFor_artifact_of_new (by decide) hnew location sibling
  have hget : s₁.artifacts.get a = .new name .compiled := Arena.get_alloc_self _ _
  have hsink : ((Sink.artifact a).write bytes).attempt s₁ = (.ok (), t) := by
    have hwrite : (s₁.artifacts.get a).write bytes = .ok ⟨name, .compiled, bytes, false, none⟩ := by
      rw [hget]
      rfl
    rw [Action.attempt_eq_ok_iff]
    show Store.writeArtifact a bytes s₁ = _
    rw [Store.writeArtifact, hwrite]
  have htouches := m.touches_newOutput name .compiled s
  refine ⟨.artifact a, ⟨s₁, b.reported⟩, a, t, ?_, ?_, { htouches with artifact := ?_ }, ?_⟩
  · show (Outcome.finished (m.outputFor location name .compiled sibling s).1,
      BuildState.mk (m.outputFor location name .compiled sibling s).2 b.reported) = _
    rw [hout]
  · show (Interaction.ofExcept (((Sink.artifact a).write bytes).attempt s₁).1).run m
      ⟨(((Sink.artifact a).write bytes).attempt s₁).2, b.reported⟩ = _
    rw [hsink]
    rfl
  · intro r hr
    have hne : a ≠ r := Arena.alloc_ne_of_live (.new name .compiled) hr
    exact (Arena.get_set_of_ne _ _ hne).trans (htouches.artifact r hr)
  · refine ⟨?_, Arena.live_alloc_self s.artifacts (.new name .compiled), Arena.get_set_self _ _ _⟩
    have howner := m.artifact?_newOutput name .compiled s name
    rw [if_pos rfl] at howner
    exact howner

/-! ### The outputs of units -/

/-- In a list of units with different names, the last one has another name than those before. -/
theorem notMem_of_nodup_concat {units : List (Ref SourceUnit)} {r : Ref SourceUnit}
    (hnames : ((units ++ [r]).map fun u => (s.units.get u).name).Nodup) :
    (s.units.get r).name ∉ units.map fun u => (s.units.get u).name := by
  rw [List.map_append, List.nodup_append] at hnames
  exact fun hin => hnames.2.2 _ hin _ (List.mem_singleton_self _) rfl

/-- Units were compiled: those that came to something are made under their names, and nothing else
is touched. -/
structure Yields (m : FileManager) (output? : Ref SourceUnit → Option Bytes) (s : Store)
    (units : List (Ref SourceUnit)) (t : Store) : Prop where
  touches : m.Touches
    ((units.filter fun u => (output? u).isSome).map fun u => (s.units.get u).name) s t
  made : ∀ u ∈ units, ∀ bytes, output? u = some bytes → ∃ a, m.Made (s.units.get u).name bytes a t

namespace Yields

variable {output? : Ref SourceUnit → Option Bytes} {units units' : List (Ref SourceUnit)}
  {r : Ref SourceUnit} {t' : Store}

/-- Without units nothing is yielded. -/
theorem nil (m : FileManager) (output? : Ref SourceUnit → Option Bytes) (s : Store) :
    m.Yields output? s [] s :=
  ⟨.refl m s, fun _ hu => absurd hu List.not_mem_nil⟩

/-- What happens afterwards and touches no output. -/
theorem of_touches (h : m.Yields output? s units t) (ht : m.Touches [] t t') :
    m.Yields output? s units t' where
  touches := by
    have htouches := h.touches.trans ht
    rwa [List.append_nil] at htouches
  made u hu bytes hbytes := by
    obtain ⟨a, ha⟩ := h.made u hu bytes hbytes
    exact ⟨a, ha.of_touches ht List.not_mem_nil⟩

/-- What was touched has the name of a unit. -/
theorem notMem_touched (h : (s.units.get r).name ∉ units.map fun u => (s.units.get u).name) :
    (s.units.get r).name ∉
      (units.filter fun u => (output? u).isSome).map fun u => (s.units.get u).name :=
  fun hin => h ((List.filter_sublist.map _).subset hin)

/-- Under the name of the next unit nothing was asked for, if its name is another one. -/
theorem fresh (h : m.Yields output? s units t)
    (hnew : (s.units.get r).name ∉ units.map fun u => (s.units.get u).name) :
    (m.asked t).artifacts.find? (s.units.get r).name =
      (m.asked s).artifacts.find? (s.units.get r).name :=
  h.touches.asked _ (notMem_touched hnew)

/-- **One unit more:** what the units before came to stays, as this one has another name. -/
theorem step (h : m.Yields output? s units t)
    (hnew : (s.units.get r).name ∉ units.map fun u => (s.units.get u).name)
    (htouches : m.Touches (if (output? r).isSome then [(s.units.get r).name] else []) t t')
    (hmade : ∀ bytes, output? r = some bytes → ∃ a, m.Made (s.units.get r).name bytes a t') :
    m.Yields output? s (units ++ [r]) t' where
  touches := by
    have hboth := h.touches.trans htouches
    rw [List.filter_append, List.map_append]
    cases hr : (output? r).isSome with
    | false => simpa [hr] using hboth
    | true => simpa [hr] using hboth
  made v hv bytes hbytes := by
    rcases List.mem_append.1 hv with hv | hv
    · obtain ⟨a, ha⟩ := h.made v hv bytes hbytes
      have hne : (s.units.get v).name ≠ (s.units.get r).name := by
        intro he
        exact hnew (he ▸ List.mem_map_of_mem hv)
      refine ⟨a, ha.of_touches htouches ?_⟩
      split
      · exact mt List.mem_singleton.1 hne
      · exact List.not_mem_nil
    · obtain rfl := List.mem_singleton.1 hv
      exact hmade bytes hbytes

/-- **A unit that came to nothing has no output:** all that was made has another name. -/
theorem notMem_of_none (output? : Ref SourceUnit → Option Bytes)
    (hnames : (units.map fun u => (s.units.get u).name).Nodup) (hr : r ∈ units)
    (hnone : output? r = none) :
    (s.units.get r).name ∉
      (units.filter fun u => (output? u).isSome).map fun u => (s.units.get u).name := by
  intro hin
  obtain ⟨v, hv, hname⟩ := List.mem_map.1 hin
  rw [List.mem_filter] at hv
  obtain rfl := List.inj_on_of_nodup_map hnames hv.1 hr hname
  rw [hnone] at hv
  exact Bool.false_ne_true hv.2

/-- **The order of the units makes no difference to what the loader owns:** under every name the
same bytes, or the artifact that was there before. -/
theorem artifact?_perm (howned : ∀ name a, m.loader.artifact? name s = some a → s.artifacts.Live a)
    (hperm : units'.Perm units) (h : m.Yields output? s units t)
    (h' : m.Yields output? s units' t') (name : String) :
    (m.loader.artifact? name t').map t'.artifacts.get =
      (m.loader.artifact? name t).map t.artifacts.get := by
  by_cases hname : ∃ u ∈ units, (output? u).isSome ∧ (s.units.get u).name = name
  · obtain ⟨u, hu, hsome, rfl⟩ := hname
    obtain ⟨bytes, hbytes⟩ := Option.isSome_iff_exists.1 hsome
    obtain ⟨a, ha⟩ := h.made u hu bytes hbytes
    obtain ⟨a', ha'⟩ := h'.made u (hperm.mem_iff.2 hu) bytes hbytes
    rw [ha.owned, ha'.owned, Option.map_some, Option.map_some, ha.artifact, ha'.artifact]
  · have huntouched : ∀ us : List (Ref SourceUnit), (∀ u ∈ us, u ∈ units) →
        name ∉ (us.filter fun u => (output? u).isSome).map fun u => (s.units.get u).name := by
      intro us hus hin
      obtain ⟨u, hu, rfl⟩ := List.mem_map.1 hin
      rw [List.mem_filter] at hu
      exact hname ⟨u, hus u hu.1, hu.2, rfl⟩
    rw [h.touches.owned name (huntouched units fun _ hu => hu),
      h'.touches.owned name (huntouched units' fun _ hu => hperm.mem_iff.1 hu)]
    refine Option.map_congr fun a ha => ?_
    have hlive := howned name a ha
    rw [h.touches.artifact a hlive, h'.touches.artifact a hlive]

end Yields

end FileManager
end LiveBuild
