/-
# Sources are delivered once, in order

A source that is asked for waits in the queue until the toolchain takes it.  Two structures
have to stay in step for that: the table of the sources, by name, which says what was asked
for, and the queue.  `Delivered` says how they do:

* the names in the table are the names asked for, each once, in the order in which they were
  first asked for;
* what was handed out so far, and then what is still queued, are the units in the table, in
  the order of their names.

Every call keeps this (`Delivered.perform`).  A unit is written through any sink that was
given for its name, before it is taken or after; it shows the first text that was offered to
it since it was asked for (`content_perform`, `sources_delivered`).
-/

import LiveBuild.Proofs.FileManager.Call
import Mathlib.Data.List.Nodup
import Mathlib.Tactic.Set

namespace LiveBuild

/-- A name that was there before is not counted again. -/
theorem eraseDups_concat_of_mem {n : String} {names : List String} (h : n ∈ names) :
    (names ++ [n]).eraseDups = names.eraseDups := by
  rw [List.eraseDups_append]
  simp [List.removeAll, h]

/-- A new name is counted last. -/
theorem eraseDups_concat_of_notMem {n : String} {names : List String} (h : n ∉ names) :
    (names ++ [n]).eraseDups = names.eraseDups ++ [n] := by
  rw [List.eraseDups_append]
  simp [List.removeAll, h, List.eraseDups_cons]

namespace FileManager

/-- The names of the sources that a call asks for. -/
def Call.sourceNames : Call → List String
  | .outputFor _ name kind _ => if kind = .source then [name] else []
  | .write .. | .takeGenerated | .finish => []

/-- The units that a call hands out. -/
def Call.handedOut (m : FileManager) (s : Store) : Call → List (Ref SourceUnit)
  | .takeGenerated => (m.takeGenerated s).1
  | .outputFor .. | .write .. | .finish => []

/-- The text that a call offers to a unit.  Bytes that are no text offer nothing. -/
def Call.text? (u : Ref SourceUnit) : Call → Option String
  | .write (.source v) bytes => if v = u then (Text.Utf8.decode bytes).toOption else none
  | .write (.artifact _) _ | .outputFor .. | .takeGenerated | .finish => none

/-- The names of the sources that calls ask for, in order and with repetitions. -/
def sourceNames (calls : List Call) : List String := calls.flatMap Call.sourceNames

/-- The units that calls hand out, one after the other. -/
def handedOut (m : FileManager) : Store → List Call → List (Ref SourceUnit)
  | _, [] => []
  | s, c :: calls => c.handedOut m s ++ m.handedOut (c.perform m s) calls

/-- The names in the table are the names asked for, and the units in the table are those that
were handed out and those that are queued. -/
structure Delivered (m : FileManager) (names : List String) (handed : List (Ref SourceUnit))
    (s : Store) : Prop where
  keys : (m.asked s).sources.keys = names.eraseDups
  values : handed ++ (m.asked s).queue = (m.asked s).sources.values
  named : m.Named s

namespace Delivered

variable {m : FileManager} {names : List String} {handed : List (Ref SourceUnit)} {s t : Store}

/-- In the beginning nothing was asked for. -/
theorem new (standard : StandardFiles) (loader : Loader) (finder : Finder) (s : Store) :
    (FileManager.new standard loader finder s).1.Delivered [] []
      (FileManager.new standard loader finder s).2 := by
  refine ⟨?_, ?_, .new standard loader finder s⟩
  · rw [asked_new]
    rfl
  · rw [asked_new]
    rfl

/-- Deliveries stay in step when nothing is asked for and nothing is taken. -/
theorem of_keepsIdentities (h : m.Delivered names handed s) (hst : s.KeepsIdentities t)
    (hs : (m.asked t).sources = (m.asked s).sources)
    (ha : (m.asked t).artifacts = (m.asked s).artifacts)
    (hq : (m.asked t).queue = (m.asked s).queue) : m.Delivered names handed t := by
  refine ⟨?_, ?_, h.named.of_keepsIdentities hst hs ha⟩
  · rw [hs, h.keys]
  · rw [hs, hq, h.values]

/-- A source is found under a name exactly if it was asked for. -/
theorem mem_names_iff (h : m.Delivered names handed s) (name : String) :
    name ∈ names ↔ ∃ u, (m.asked s).sources.find? name = some u := by
  rw [← List.mem_eraseDups, ← h.keys, ← Table.find?_isSome_iff, Option.isSome_iff_exists]

/-- A name without a sink was not asked for. -/
theorem notMem_names (h : m.Delivered names handed s) {name : String}
    (hnew : m.sink? name .source s = none) : name ∉ names := by
  rw [sink?, if_pos rfl, Option.map_eq_none_iff] at hnew
  rw [h.mem_names_iff, hnew]
  simp

/-- **A source that is asked for for the first time** is added to both. -/
theorem newSource (h : m.Delivered names handed s) {name : String}
    (hnew : m.sink? name .source s = none) :
    m.Delivered (names ++ [name]) handed (m.newSource name s) := by
  have hnone : (m.asked s).sources.find? name = none := by
    rwa [sink?, if_pos rfl, Option.map_eq_none_iff] at hnew
  have hentries := Table.entries_insert_of_new (s.units.alloc (.pending name)).1 hnone
  refine ⟨?_, ?_, h.named.newSource name⟩
  · rw [eraseDups_concat_of_notMem (h.notMem_names hnew), ← h.keys, asked_newSource, Table.keys,
      hentries, List.map_append]
    rfl
  · rw [asked_newSource, Table.values, hentries, List.map_append, ← List.append_assoc, h.values]
    rfl

/-- **To ask for an output** adds its name, if it is a source. -/
theorem outputFor (h : m.Delivered names handed s) (location : Location) (name : String)
    (kind : Kind) (sibling : Option FileHandle) :
    m.Delivered (names ++ if kind = .source then [name] else []) handed
      (m.outputFor location name kind sibling s).2 := by
  rcases m.outputFor_cases location name kind sibling s with
    ⟨sink, hsink, hx⟩ | ⟨hk, hnew, hx⟩ | ⟨hk, hnew, hx⟩
  · rw [hx]
    split
    · rename_i hk
      subst hk
      rw [sink?, if_pos rfl] at hsink
      obtain ⟨u, hu, -⟩ := Option.map_eq_some_iff.1 hsink
      refine ⟨?_, h.values, h.named⟩
      rw [eraseDups_concat_of_mem ((h.mem_names_iff name).2 ⟨u, hu⟩), h.keys]
    · rwa [List.append_nil]
  · rw [hx, if_pos hk]
    exact h.newSource hnew
  · rw [hx, if_neg hk, List.append_nil]
    have hasked := m.asked_newOutput name kind s
    refine ⟨?_, ?_, h.named.newOutput name kind⟩
    · rw [hasked, h.keys]
    · rw [hasked, h.values]

/-- **To take the queue** hands it out. -/
theorem takeGenerated (h : m.Delivered names handed s) :
    m.Delivered names (handed ++ (m.takeGenerated s).1) (m.takeGenerated s).2 := by
  have hasked := m.asked_takeGenerated s
  refine ⟨?_, ?_, h.named.perform .takeGenerated⟩
  · rw [hasked, h.keys]
  · rw [hasked, List.append_nil]
    exact h.values

/-- **Every call keeps deliveries in step.** -/
theorem perform (h : m.Delivered names handed s) (c : Call) :
    m.Delivered (names ++ c.sourceNames) (handed ++ c.handedOut m s) (c.perform m s) := by
  cases c with
  | outputFor location name kind sibling =>
    rw [Call.handedOut, List.append_nil]
    exact h.outputFor location name kind sibling
  | write sink bytes =>
    rw [Call.sourceNames, Call.handedOut, List.append_nil, List.append_nil]
    have hasked := m.asked_write sink bytes s
    exact h.of_keepsIdentities (.write sink bytes s) (congrArg Outputs.sources hasked)
      (congrArg Outputs.artifacts hasked) (congrArg Outputs.queue hasked)
  | takeGenerated =>
    rw [Call.sourceNames, List.append_nil]
    exact h.takeGenerated
  | finish =>
    rw [Call.sourceNames, Call.handedOut, List.append_nil, List.append_nil]
    have hasked := m.asked_finish s
    exact h.of_keepsIdentities (.finalizeAll s _) (congrArg Outputs.sources hasked)
      (congrArg Outputs.artifacts hasked) (congrArg Outputs.queue hasked)

/-- **Whatever a manager is called for, sources are delivered.** -/
theorem performAll (h : m.Delivered names handed s) (calls : List Call) :
    m.Delivered (names ++ FileManager.sourceNames calls) (handed ++ m.handedOut s calls)
      (m.perform s calls) := by
  induction calls generalizing names handed s with
  | nil =>
    rw [FileManager.sourceNames, List.flatMap_nil, handedOut, List.append_nil, List.append_nil]
    exact h
  | cons c calls ih =>
    rw [FileManager.sourceNames, List.flatMap_cons, handedOut, ← List.append_assoc,
      ← List.append_assoc]
    exact ih (h.perform c)

/-- **The units, delivered or queued, have the names asked for, each once.** -/
theorem names_units (h : m.Delivered names handed s) :
    (handed ++ (m.asked s).queue).map (fun u => (s.units.get u).name) = names.eraseDups := by
  rw [h.values, ← h.keys, Table.values, Table.keys, List.map_map]
  refine List.map_congr_left fun e he => ?_
  exact (h.named.source e.1 e.2 ((Table.find?_eq_some_iff _ _ _).2 he)).2

/-- Every name asked for is counted once. -/
theorem nodup_names (h : m.Delivered names handed s) : names.eraseDups.Nodup :=
  h.keys ▸ (m.asked s).sources.nodup_keys

/-- **No unit is delivered twice.** -/
theorem nodup_units (h : m.Delivered names handed s) : (handed ++ (m.asked s).queue).Nodup := by
  have hnames := h.nodup_names
  rw [← h.names_units] at hnames
  exact List.Nodup.of_map _ hnames

/-- Every source asked for was handed out or waits in the queue. -/
theorem mem_units (h : m.Delivered names handed s) {name : String} {u : Ref SourceUnit}
    (hu : (m.asked s).sources.find? name = some u) : u ∈ handed ++ (m.asked s).queue := by
  rw [h.values]
  exact List.mem_map.2 ⟨_, (Table.find?_eq_some_iff _ _ _).1 hu, rfl⟩

end Delivered

/-! ### What a unit shows -/

variable {m : FileManager} {s : Store} {u : Ref SourceUnit}

/-- To ask for an output writes no unit. -/
theorem content_outputFor (m : FileManager) (location : Location) (name : String) (kind : Kind)
    (sibling : Option FileHandle) (hu : s.units.Live u) :
    ((m.outputFor location name kind sibling s).2.units.get u).content =
      (s.units.get u).content := by
  rcases m.outputFor_cases location name kind sibling s with
    ⟨sink, -, hx⟩ | ⟨-, -, hx⟩ | ⟨-, -, hx⟩
  · rw [hx]
  · rw [hx]
    exact congrArg SourceUnit.content (Arena.get_alloc_of_live _ hu)
  · rw [hx]
    rfl

/-- **A write gives a unit its text, if it has none yet.** -/
theorem content_write (sink : Sink) (bytes : Bytes) (s : Store) (u : Ref SourceUnit) :
    (((sink.write bytes).attempt s).2.units.get u).content =
      (s.units.get u).content.or (Call.text? u (.write sink bytes)) := by
  cases sink with
  | artifact a =>
    rw [Call.text?, Option.or_none]
    show (((Store.writeArtifact a bytes).attempt s).2.units.get u).content = _
    unfold Action.attempt Store.writeArtifact
    cases (s.artifacts.get a).write bytes <;> rfl
  | source v =>
    show (((Store.writeUnit v bytes).attempt s).2.units.get u).content = _
    rw [Call.text?]
    unfold Action.attempt Store.writeUnit SourceUnit.write
    cases hd : Text.Utf8.decode bytes with
    | error fault =>
      -- bytes that are no text are refused, and they offer none
      simp [Except.toOption]
    | ok text =>
      unfold SourceUnit.writeText
      by_cases he : v = u
      · subst he
        cases hc : (s.units.get v).content with
        | none => simp [Except.toOption]
        | some old => simp [hc]
      · cases hc : (s.units.get v).content with
        | none => simp [he, Arena.get_set_of_ne]
        | some old => simp [he]

/-- A write that is accepted gives the unit the text that the bytes encode. -/
theorem content_of_accepted {bytes : Bytes}
    (h : (((Sink.source u).write bytes).attempt s).1 = .ok ()) :
    ∃ text, Text.Utf8.decode bytes = .ok text ∧
      ((((Sink.source u).write bytes).attempt s).2.units.get u).content = some text := by
  change ((Store.writeUnit u bytes).attempt s).1 = _ at h
  show ∃ text, _ ∧ (((Store.writeUnit u bytes).attempt s).2.units.get u).content = _
  unfold Action.attempt Store.writeUnit SourceUnit.write SourceUnit.writeText at h ⊢
  cases hd : Text.Utf8.decode bytes with
  | error fault => simp [hd] at h
  | ok text =>
    cases hc : (s.units.get u).content with
    | some old => simp [hd, hc] at h
    | none => exact ⟨text, rfl, by simp⟩

/-- To finish writes no unit. -/
theorem units_finish (m : FileManager) (s : Store) : (m.finish s).units = s.units := by
  rw [finish, Store.finalizeAll_eq]

/-- A call gives a unit the text that it offers, if the unit has none yet. -/
theorem content_perform (m : FileManager) (c : Call) (hu : s.units.Live u) :
    ((c.perform m s).units.get u).content = (s.units.get u).content.or (c.text? u) := by
  cases c with
  | outputFor location name kind sibling =>
    rw [Call.text?, Option.or_none]
    exact m.content_outputFor location name kind sibling hu
  | write sink bytes => exact content_write sink bytes s u
  | takeGenerated =>
    rw [Call.text?, Option.or_none]
    rfl
  | finish =>
    rw [Call.text?, Option.or_none, Call.perform, units_finish]

/-- **A unit shows the first text that was offered to it.** -/
theorem content_performAll (m : FileManager) (calls : List Call) (hu : s.units.Live u) :
    ((m.perform s calls).units.get u).content =
      (s.units.get u).content.or (calls.findSome? (Call.text? u)) := by
  induction calls generalizing s with
  | nil => exact (Option.or_none).symm
  | cons c calls ih =>
    have hlive := ((m.keepsIdentities_perform s c).unit u hu).1
    have hrest := ih hlive
    rw [content_perform m c hu, Option.or_assoc] at hrest
    refine hrest.trans (congrArg _ ?_)
    rw [List.findSome?_cons]
    cases c.text? u <;> rfl

/-- **A new unit shows the first text that is offered to it.** -/
theorem content_of_new {name : String} (hnew : m.sink? name .source s = none)
    (location : Location) (sibling : Option FileHandle) (calls : List Call)
    (hanswer : (m.outputFor location name .source sibling s).1 = .source u) :
    ((m.perform (m.outputFor location name .source sibling s).2 calls).units.get u).content =
      calls.findSome? (Call.text? u) := by
  rw [outputFor_source_of_new hnew] at hanswer ⊢
  obtain rfl := Sink.source.inj hanswer
  have hlive : (m.newSource name s).units.Live (s.units.alloc (.pending name)).1 :=
    Arena.live_alloc_self _ _
  have hpending : ((m.newSource name s).units.get (s.units.alloc (.pending name)).1).content = none :=
    congrArg SourceUnit.content (Arena.get_alloc_self _ _)
  rw [content_performAll m calls hlive, hpending, Option.none_or]

/-- **A text that was accepted stays.** -/
theorem content_of_accepted_perform {bytes : Bytes} (hu : s.units.Live u)
    (h : (((Sink.source u).write bytes).attempt s).1 = .ok ()) (calls : List Call) :
    ∃ text, Text.Utf8.decode bytes = .ok text ∧
      ((m.perform s (.write (.source u) bytes :: calls)).units.get u).content = some text := by
  have hlive := ((Store.KeepsIdentities.write (.source u) bytes s).unit u hu).1
  obtain ⟨text, hdecode, htext⟩ := content_of_accepted h
  refine ⟨text, hdecode, ?_⟩
  have hlater := content_performAll m calls hlive
  rw [htext, Option.some_or] at hlater
  exact hlater

/-- **Sources are delivered once, in order.**  What calls hand out, and then what they leave in
the queue, is one unit for each name of a source that they ask for, in the order of the first
requests.  Every request for a name, also after its unit was taken, is answered with that
unit.  The unit shows the first text that is offered to it once it was asked for, which is the
text of the one write to it that is accepted. -/
theorem sources_delivered (standard : StandardFiles) (loader : Loader) (finder : Finder)
    (origin : Store) (calls : List Call) :
    let m := (FileManager.new standard loader finder origin).1
    let s := (FileManager.new standard loader finder origin).2
    let t := m.perform s calls
    let units := m.handedOut s calls ++ (m.asked t).queue
    units.Nodup ∧
      units.map (fun u => (t.units.get u).name) = (sourceNames calls).eraseDups ∧
      ∀ before location name sibling after,
        calls = before ++ .outputFor location name .source sibling :: after →
          ∃ u ∈ units, (t.units.get u).name = name ∧
            (m.outputFor location name .source sibling (m.perform s before)).1 = .source u ∧
            (name ∉ sourceNames before →
              (t.units.get u).content = after.findSome? (Call.text? u)) ∧
            ∀ between bytes later, after = between ++ .write (.source u) bytes :: later →
              (((Sink.source u).write bytes).attempt (m.perform s
                (before ++ .outputFor location name .source sibling :: between))).1 = .ok () →
                ∃ text, Text.Utf8.decode bytes = .ok text ∧
                  (t.units.get u).content = some text := by
  intro m s t units
  have hstart : m.Delivered [] [] s := .new standard loader finder origin
  have hend : m.Delivered (sourceNames calls) (m.handedOut s calls) t := hstart.performAll calls
  refine ⟨hend.nodup_units, hend.names_units, ?_⟩
  rintro before location name sibling after rfl
  -- the calls are cut where the source is asked for: before it, behind it, and all of them
  set s₁ := m.perform s before
  set s₂ := (m.outputFor location name .source sibling s₁).2
  have ht : t = m.perform s₂ after := m.perform_append s before _
  have hmid : m.Delivered (sourceNames before) (m.handedOut s before) s₁ := hstart.performAll before
  have hsink := m.sink?_outputFor location name .source sibling s₁
  rw [sink?, if_pos rfl] at hsink
  obtain ⟨u, hu, hanswer⟩ := Option.map_eq_some_iff.1 hsink
  have hfinal : (m.asked t).sources.find? name = some u :=
    ht ▸ (m.extends_performAll s₂ after).source name u hu
  refine ⟨u, hend.mem_units hfinal, (hend.named.source name u hfinal).2, hanswer.symm, ?_, ?_⟩
  · intro hnew
    have hnone : m.sink? name .source s₁ = none := by
      rw [hmid.mem_names_iff, not_exists] at hnew
      rw [sink?, if_pos rfl, Option.map_eq_none_iff]
      exact Option.eq_none_iff_forall_ne_some.2 hnew
    rw [ht]
    exact content_of_new hnone location sibling after hanswer.symm
  · rintro between bytes later rfl haccepted
    set s₃ := m.perform s (before ++ .outputFor location name .source sibling :: between)
    have hs₃ : s₃ = m.perform s₂ between := m.perform_append s before _
    have hfind : (m.asked s₃).sources.find? name = some u :=
      hs₃ ▸ (m.extends_performAll s₂ between).source name u hu
    have hlive : s₃.units.Live u := (hstart.named.performAll _).source name u hfind |>.1
    rw [ht, m.perform_append, ← hs₃]
    exact content_of_accepted_perform hlive haccepted later

end FileManager
end LiveBuild
