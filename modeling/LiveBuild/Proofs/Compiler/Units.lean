/-
# The units of a build

The units of a build are those that were queued and those that the file manager handed out in
the meantime.  Two guards keep names apart, and neither knows of the other:

* a unit is queued only under a name that is not queued (`addUnit`), so queued units have
  different names in every state that a compiler reaches (`Reached.queued`);
* the file manager makes one unit for each name of a source that is asked for, so units that
  are handed out have different names (`FileManager.Delivered.names_units`).

A source may be asked for under the name of a queued unit.  So the names of all units of a
build are different exactly if the toolchain does not do that (`names_of_units`).  If it does,
and writes the output of each unit under its name, two units end in one artifact
(`names_collide`), since what is given for one name is one object.
-/

import LiveBuild.Proofs.Compiler.Sources
import LiveBuild.Proofs.Toolchain.Calls

namespace LiveBuild

namespace Interaction

variable {α : Type} {m : FileManager} {b b' : BuildState} {location : Location} {name : String}
  {kind : Kind} {sibling : Option FileHandle}

/-- **What a request was given is there when the run is over.** -/
theorem sink?_of_mem_transcript (hparent : m.loader.parent.Discreet) {x : Interaction α}
    (h : (b', .outputFor location name kind sibling) ∈ x.transcript m b) :
    m.sink? name kind (x.run m b).2.store =
      some (m.outputFor location name kind sibling b'.store).1 := by
  induction x generalizing b with
  | done a => cases h
  | fail e => cases h
  | panic message => cases h
  | ask r next ih =>
    rw [transcript, List.mem_cons] at h
    rcases h with h | h
    · obtain ⟨rfl, rfl⟩ := Prod.mk.inj h
      have hrest := extends_run hparent
        (next (b'.answer m (.outputFor location name kind sibling)).1)
        (b'.answer m (.outputFor location name kind sibling)).2
      exact FileManager.sink?_of_extends (m.sink?_outputFor location name kind sibling b'.store) hrest
    · exact ih _ h

end Interaction

namespace Compiler

/-- The units that the file manager of a build hands out: to the toolchain, and to the build
itself when the toolchain is done. -/
def handedOut (c : Compiler) (s : Store) : List (Ref SourceUnit) :=
  c.work.handedOut (c.files s) (c.opening s) ++
    ((c.files s).takeGenerated ((c.files s).finish (c.closing s).store)).1

/-- The names of the sources that the toolchain of a build asks for. -/
def requested (c : Compiler) (s : Store) : List String :=
  c.work.sourceNames (c.files s) (c.opening s)

/-- What units are called when a build is over. -/
def namesAfter (c : Compiler) (s : Store) (units : List (Ref SourceUnit)) : List String :=
  units.map fun u => ((c.settled s).units.get u).name

/-- A compiler in a store, after any units and sources were queued and any builds were done.
In the meantime anything may happen that keeps the identities of all objects. -/
inductive Reached : Compiler → Store → Prop
  | idle {c : Compiler} {s : Store} (hqueued : c.queued = []) (hparent : c.loader.parent.Discreet) :
    Reached c s
  | addUnit {c c' : Compiler} {s : Store} (h : Reached c s) {u : Ref SourceUnit}
    (hu : s.units.Live u) (hadd : c.addUnit u s = .ok c') : Reached c' s
  | addSource {c c' : Compiler} {s t : Store} (h : Reached c s) {name text : String}
    (hadd : c.addSource name text s = (.ok c', t)) : Reached c' t
  | build {c : Compiler} {s : Store} (h : Reached c s) (o : VisitOrder) :
    Reached (c.buildIn o s).compiler (c.buildIn o s).store
  | meanwhile {c : Compiler} {s t : Store} (h : Reached c s) (hst : s.KeepsIdentities t) :
    Reached c t

/-- What is queued exists, under names of its own. -/
structure Queued (c : Compiler) (s : Store) : Prop where
  live : ∀ u ∈ c.queued, s.units.Live u
  nodup : (c.queuedNames s).Nodup

variable {c c' : Compiler} {s t : Store}

/-- The names in the queue stay what they are while units keep their names. -/
theorem queuedNames_of_keepsIdentities (h : ∀ u ∈ c.queued, s.units.Live u)
    (hst : s.KeepsIdentities t) : c.queuedNames t = c.queuedNames s :=
  List.map_congr_left fun u hu => (hst.unit u (h u hu)).2

/-- A unit that is accepted is queued last. -/
theorem queued_addUnit {u : Ref SourceUnit} (h : c.addUnit u s = .ok c') :
    c'.queued = c.queued ++ [u] ∧ c'.loader = c.loader := by
  simp only [addUnit] at h
  repeat' split at h
  all_goals cases h
  exact ⟨rfl, rfl⟩

namespace Queued

/-- The queue stays sound while units keep their names. -/
theorem of_keepsIdentities (h : c.Queued s) (hst : s.KeepsIdentities t) : c.Queued t :=
  ⟨fun u hu => (hst.unit u (h.live u hu)).1,
    queuedNames_of_keepsIdentities h.live hst ▸ h.nodup⟩

/-- An empty queue is sound. -/
theorem of_nil (h : c.queued = []) (s : Store) : c.Queued s := by
  refine ⟨fun u hu => ?_, ?_⟩
  · rw [h] at hu
    cases hu
  · rw [queuedNames, h]
    exact List.nodup_nil

/-- The queue stays sound when a unit is accepted: its name is new in it. -/
theorem addUnit (h : c.Queued s) {u : Ref SourceUnit} (hu : s.units.Live u)
    (hadd : c.addUnit u s = .ok c') : c'.Queued s := by
  refine ⟨fun v hv => ?_, nodup_queuedNames_addUnit hadd h.nodup⟩
  rw [(queued_addUnit hadd).1, List.mem_append, List.mem_singleton] at hv
  rcases hv with hv | rfl
  · exact h.live v hv
  · exact hu

end Queued

/-- **In every state that a compiler reaches,** what is queued has names of its own. -/
theorem Reached.queued (h : Reached c s) : c.Queued s ∧ c.loader.parent.Discreet := by
  induction h with
  | idle hqueued hparent => exact ⟨.of_nil hqueued _, hparent⟩
  | addUnit _ hu hadd ih => exact ⟨ih.1.addUnit hu hadd, (queued_addUnit hadd).2 ▸ ih.2⟩
  | @addSource c c' s t _ name text hadd ih =>
    obtain ⟨hunit, rfl⟩ := Prod.mk.inj hadd
    have hkeeps : s.KeepsIdentities (s.newUnit ⟨name, some text⟩).2 := .of_newUnit _ rfl rfl
    have hlive : (s.newUnit ⟨name, some text⟩).2.units.Live (s.newUnit ⟨name, some text⟩).1 :=
      Arena.live_alloc_self _ _
    exact ⟨(ih.1.of_keepsIdentities hkeeps).addUnit hlive hunit, (queued_addUnit hunit).2 ▸ ih.2⟩
  | @build c s _ o ih =>
    rw [buildIn_eq]
    exact ⟨.of_nil rfl _, ih.2⟩
  | meanwhile _ hst ih => exact ⟨ih.1.of_keepsIdentities hst, ih.2⟩

/-! ### What is handed out -/

/-- **What every request and every call preserves,** all that is done before materializing
preserves. -/
theorem settled_preserves {P : Store → Prop} (hopen : P (c.opening s).store)
    (hanswer : ∀ b r, P b.store → P (BuildState.answer (c.files s) b r).2.store)
    (hcall : ∀ t (k : FileManager.Call), P t → P (k.perform (c.files s) t)) : P (c.settled s) := by
  have hclosing : P (c.closing s).store :=
    Interaction.run_induction (P := fun b => P b.store) hanswer c.work hopen
  exact hcall _ .takeGenerated (hcall _ .finish hclosing)

/-- A build renames nothing until its artifacts are materialized. -/
theorem keepsIdentities_settled (hparent : c.loader.parent.Discreet) (s : Store) :
    s.KeepsIdentities (c.settled s) :=
  settled_preserves (P := s.KeepsIdentities) (.of_eq rfl rfl)
    (fun b r h => h.trans (BuildState.keepsIdentities_answer hparent b r))
    (fun t k h => h.trans ((c.files s).keepsIdentities_perform t k))

/-- **What a build hands out** is one unit for each name of a source that was asked for. -/
theorem delivered_settled (hparent : c.loader.parent.Discreet) (s : Store) :
    (c.files s).Delivered (c.requested s) (c.handedOut s) (c.settled s) := by
  have hwork : (c.files s).Delivered (c.requested s) (c.work.handedOut (c.files s) (c.opening s))
      (c.closing s).store :=
    (FileManager.Delivered.new c.standard c.loader c.finder s).run (b := c.opening s) hparent c.work
  have hfinish := hwork.perform .finish
  rw [FileManager.Call.sourceNames, FileManager.Call.handedOut, List.append_nil,
    List.append_nil] at hfinish
  exact hfinish.takeGenerated

/-- The units that a build hands out besides its own are one for each name asked for. -/
theorem names_handedOut (hparent : c.loader.parent.Discreet) (s : Store) :
    c.namesAfter s (c.handedOut s) = (c.requested s).eraseDups := by
  have hqueue : ((c.files s).asked (c.settled s)).queue = [] := by
    rw [settled, FileManager.asked_takeGenerated]
  have hnames := (delivered_settled hparent s).names_units
  rwa [hqueue, List.append_nil] at hnames

/-- **Two requests of a run are answered with one object** exactly if they ask for one name,
and both for a source or neither. -/
theorem same_sink_iff (hparent : c.loader.parent.Discreet) (s : Store) {b b' : BuildState}
    {location location' : Location} {name name' : String} {kind kind' : Kind}
    {sibling sibling' : Option FileHandle}
    (h : (b, .outputFor location name kind sibling) ∈ c.work.transcript (c.files s) (c.opening s))
    (h' : (b', .outputFor location' name' kind' sibling') ∈
      c.work.transcript (c.files s) (c.opening s)) :
    ((c.files s).outputFor location name kind sibling b.store).1 =
        ((c.files s).outputFor location' name' kind' sibling' b'.store).1 ↔
      name = name' ∧ (kind = .source ↔ kind' = .source) := by
  have hnamed : (c.files s).Named (c.closing s).store :=
    (FileManager.Named.new c.standard c.loader c.finder s).run (b := c.opening s) hparent c.work
  have hsink : (c.files s).sink? name kind (c.closing s).store = _ :=
    Interaction.sink?_of_mem_transcript hparent h
  have hsink' : (c.files s).sink? name' kind' (c.closing s).store = _ :=
    Interaction.sink?_of_mem_transcript hparent h'
  constructor
  · intro he
    rw [he] at hsink
    refine ⟨(hnamed.name_sink hsink).symm.trans (hnamed.name_sink hsink'), ?_⟩
    rw [← FileManager.exists_source_iff hsink, ← FileManager.exists_source_iff hsink']
  · rintro ⟨rfl, hkind⟩
    have hsame : (c.files s).sink? name kind (c.closing s).store =
        (c.files s).sink? name kind' (c.closing s).store := by
      rw [FileManager.sink?, FileManager.sink?]
      simp only [hkind]
    rw [hsame, hsink'] at hsink
    exact (Option.some.inj hsink).symm

/-- **When the units of a build have different names.**  Queued units do in every state that a
compiler reaches, and a build renames none.  Those that a build hands out are called what the
toolchain asked for, each name once.  So all names are different exactly if no source is asked
for under the name of a queued unit; and what is written for two units goes into one object
exactly if it is asked for under one name. -/
theorem names_of_units (h : Reached c s) :
    c.namesAfter s c.queued = c.queuedNames s ∧ (c.queuedNames s).Nodup ∧
      c.namesAfter s (c.handedOut s) = (c.requested s).eraseDups ∧
      ((c.namesAfter s (c.queued ++ c.handedOut s)).Nodup ↔
        ∀ name ∈ c.requested s, name ∉ c.queuedNames s) ∧
      ∀ b b' location location' name name' kind kind' sibling sibling',
        (b, .outputFor location name kind sibling) ∈
            c.work.transcript (c.files s) (c.opening s) →
        (b', .outputFor location' name' kind' sibling') ∈
            c.work.transcript (c.files s) (c.opening s) →
          (((c.files s).outputFor location name kind sibling b.store).1 =
              ((c.files s).outputFor location' name' kind' sibling' b'.store).1 ↔
            name = name' ∧ (kind = .source ↔ kind' = .source)) := by
  obtain ⟨hqueued, hparent⟩ := h.queued
  have hbefore : c.namesAfter s c.queued = c.queuedNames s :=
    queuedNames_of_keepsIdentities hqueued.live (keepsIdentities_settled hparent s)
  have hafter := names_handedOut hparent s
  have hnodup := (delivered_settled hparent s).nodup_names
  refine ⟨hbefore, hqueued.nodup, hafter, ?_, fun b b' _ _ _ _ _ _ _ _ => same_sink_iff hparent s⟩
  have happend : c.namesAfter s (c.queued ++ c.handedOut s) =
      c.namesAfter s c.queued ++ c.namesAfter s (c.handedOut s) := List.map_append
  rw [happend, hbefore, hafter, List.nodup_append]
  constructor
  · rintro ⟨-, -, hapart⟩ name hname hmem
    exact hapart name hmem name (List.mem_eraseDups.2 hname) rfl
  · intro hapart
    refine ⟨hqueued.nodup, hnodup, fun name hmem name' hname => ?_⟩
    rintro rfl
    exact hapart name (List.mem_eraseDups.1 hname) hmem

/-- A toolchain that asks for one source for every unit, and writes the name of the unit as
its output. -/
def echoing (source : String) : Toolchain where
  name := "echoing"
  compile units _ := .rounds (.every fun unit => do
    let _ ← .outputFor .sourceOutput source .source none
    let u ← .unit unit
    let sink ← .outputFor .classOutput u.name .compiled none
    .write sink (Text.Utf8.encode u.name)
    return true) 3 units

/-- A compiler with that toolchain over an empty store. -/
def idleEcho (source : String) : Compiler × Store :=
  Compiler.new (echoing source) Host.empty .none Directories.none.toStandardFiles (.image 0)
    Store.empty

/-- The compiler after the source A was queued. -/
def echo (source : String) : Compiler × Store :=
  ({ (idleEcho source).1 with queued := [⟨0⟩] }, ((idleEcho source).2.newUnit ⟨"A", some "a"⟩).2)

/-- The source is accepted by the idle compiler. -/
theorem addSource_idleEcho (source : String) :
    (idleEcho source).1.addSource "A" "a" (idleEcho source).2 =
      (.ok (echo source).1, (echo source).2) := by
  have hunit : (echo source).2.units.get ⟨0⟩ = ⟨"A", some "a"⟩ :=
    Arena.get_alloc_self (idleEcho source).2.units _
  have hblank : ¬ Text.allBlank "A".toList = true := by decide +kernel
  have hwritten : ¬ (⟨"A", some "a"⟩ : SourceUnit).isPending = true := by decide
  have hnew : "A" ∉ (idleEcho source).1.queuedNames (echo source).2 := List.not_mem_nil
  have hadd : (idleEcho source).1.addUnit ⟨0⟩ (echo source).2 = .ok (echo source).1 := by
    simp only [addUnit, hunit]
    rw [if_neg hblank, if_neg hwritten, if_neg hnew]
    rfl
  exact Prod.ext hadd rfl

/-- The compiler with the source in its queue can be reached. -/
theorem reached_echo (source : String) : Reached (echo source).1 (echo source).2 :=
  .addSource (.idle rfl (Host.keeps_empty Store.SparesOutputs.bearsLoading)) (addSource_idleEcho source)

/-- A toolchain that asks for the source B gets units of two names. -/
theorem names_of_units_echo :
    (echo "B").1.queuedNames (echo "B").2 = ["A"] ∧
      (echo "B").1.handedOut (echo "B").2 = [⟨1⟩] ∧
      ((echo "B").1.namesAfter (echo "B").2 [⟨0⟩, ⟨1⟩]).Nodup := by
  have hhanded : (echo "B").1.handedOut (echo "B").2 = [⟨1⟩] := by decide +kernel
  obtain ⟨-, -, -, hiff, -⟩ := names_of_units (reached_echo "B")
  rw [hhanded] at hiff
  exact ⟨by decide +kernel, hhanded, hiff.2 (by decide +kernel)⟩

/-- **A toolchain that asks for the source A while it compiles the unit A** gets a second unit
of this name.  The outputs of both end in one artifact, and the build succeeds with it. -/
theorem names_collide :
    Reached (echo "A").1 (echo "A").2 ∧ (echo "A").1.queued = [⟨0⟩] ∧
      (echo "A").1.handedOut (echo "A").2 = [⟨1⟩] ∧
      (echo "A").1.namesAfter (echo "A").2 [⟨0⟩, ⟨1⟩] = ["A", "A"] ∧
      (((echo "A").1.settled (echo "A").2).artifacts.get ⟨0⟩).bytes = [65, 65] ∧
      ((echo "A").1.build (echo "A").2).outcome = .ok [("A", ⟨0⟩)] ∧
      (((echo "A").1.build (echo "A").2).store.loaded.get ⟨0⟩).image = [65, 65] :=
  ⟨reached_echo "A", rfl, by decide +kernel, by decide +kernel, by decide +kernel,
    eq_ok_of_toOption_eq_some (by decide +kernel), by decide +kernel⟩

end Compiler
end LiveBuild
