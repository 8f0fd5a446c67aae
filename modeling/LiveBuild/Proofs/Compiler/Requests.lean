/-
# One request after the other

What a compiler is used for is queueing units and compiling them, any number of times in any
order.  A run (`Run`) writes down what came of each use:

| use | written down | queue |
| --- | --- | --- |
| a unit or a text is queued | `accepted`, with the unit as it was | is longer by it |
| it is refused | `refused`, with the error | stays |
| the queue is compiled | `built`, with what was queued and with the outcome | is empty |

A toolchain may do anything that it can ask for, may be another one for every build, and may
end with a verdict, with an error or dead.  Between two uses anything may happen that leaves
units with a text as they are.

What is queued follows from what is written down: it is what was accepted since the last build
(`unbuilt`).  Every use keeps it so (`Follows.step`), so it is so in every run
(`queue_of_run`).

A build that is written down was done by a compiler that had been used as it is written down before
it (`Run.exists_build`).  So what was accepted before it since the last one, and nothing else, is
what its toolchain was let compile (`Follows.buildIn_eq`), and what is written down of it came of
that.
-/

import Mathlib.Data.List.DropRight
import LiveBuild.Proofs.Compiler.Owners
import LiveBuild.Proofs.Compiler.Units
import LiveBuild.Proofs.Toolchain.Texts

namespace LiveBuild

/-- A unit that can be compiled: it has a name and a text. -/
structure SourceUnit.Ready (u : SourceUnit) : Prop where
  named : Text.allBlank u.name.toList = false
  written : u.isPending = false

namespace Compiler

/-- What a build gives to its toolchain: the units of the queue, each with what it is when the
toolchain begins. -/
def request (c : Compiler) (s : Store) : List (Ref SourceUnit × SourceUnit) :=
  c.queued.map fun u => (u, (c.opening s).store.units.get u)

/-- One use of a compiler, and what came of it. -/
inductive Entry where
  | accepted (unit : Ref SourceUnit) (was : SourceUnit)
  | refused (was : SourceUnit) (error : Error)
  | built (request : List (Ref SourceUnit × SourceUnit))
    (outcome : Except Error (List (String × Ref LoadedArtifact)))

/-- Whether the queue was compiled. -/
def Entry.isBuilt : Entry → Bool
  | .built .. => true
  | .accepted .. | .refused .. => false

/-- The unit that was queued, if one was. -/
def Entry.accepted? : Entry → Option (Ref SourceUnit × SourceUnit)
  | .accepted u was => some (u, was)
  | .refused .. | .built .. => none

/-- What was accepted since the last build, or since the beginning if there was none. -/
def unbuilt (log : List Entry) : List (Ref SourceUnit × SourceUnit) :=
  (log.rtakeWhile fun e => !e.isBuilt).filterMap Entry.accepted?

/-- One use of a compiler.  A build may be done with any toolchain. -/
inductive Step (c : Compiler) (s : Store) : Entry → Compiler → Store → Prop
  | accepted {c' : Compiler} {u : Ref SourceUnit} (hu : s.units.Live u)
    (h : c.addUnit u s = .ok c') : Step c s (.accepted u (s.units.get u)) c' s
  | refused {e : Error} {u : Ref SourceUnit} (hu : s.units.Live u) (h : c.addUnit u s = .error e) :
    Step c s (.refused (s.units.get u) e) c s
  | acceptedSource {c' : Compiler} {t : Store} {name text : String}
    (h : c.addSource name text s = (.ok c', t)) :
    Step c s (.accepted (s.newUnit ⟨name, some text⟩).1 ⟨name, some text⟩) c' t
  | refusedSource {e : Error} {t : Store} {name text : String}
    (h : c.addSource name text s = (.error e, t)) : Step c s (.refused ⟨name, some text⟩ e) c t
  | built (toolchain : Toolchain) (o : VisitOrder) :
    Step c s
      (.built ({ c with toolchain }.request s) ({ c with toolchain }.buildIn o s).outcome)
      ({ c with toolchain }.buildIn o s).compiler ({ c with toolchain }.buildIn o s).store

/-- Any uses of a compiler, and what was written down.  In between anything may happen that
leaves texts as they are. -/
inductive Run (c₀ : Compiler) (s₀ : Store) : List Entry → Compiler → Store → Prop
  | start : Run c₀ s₀ [] c₀ s₀
  | snoc {log : List Entry} {e : Entry} {c c' : Compiler} {s t : Store} (h : Run c₀ s₀ log c s)
    (hs : Step c s e c' t) : Run c₀ s₀ (log ++ [e]) c' t
  | meanwhile {log : List Entry} {c : Compiler} {s t : Store} (h : Run c₀ s₀ log c s)
    (hst : s.KeepsTexts t) : Run c₀ s₀ log c t

/-! ### What is written down -/

section Log

variable {log : List Entry} {u : Ref SourceUnit} {was : SourceUnit}

@[simp] theorem unbuilt_nil : unbuilt [] = [] := rfl

/-- What is accepted comes last among what is not built yet. -/
@[simp] theorem unbuilt_accepted (log : List Entry) (u : Ref SourceUnit) (was : SourceUnit) :
    unbuilt (log ++ [.accepted u was]) = unbuilt log ++ [(u, was)] := by
  rw [unbuilt, List.rtakeWhile_concat_pos _ _ _ rfl, List.filterMap_append]
  rfl

/-- What is refused makes no difference to what is not built yet. -/
@[simp] theorem unbuilt_refused (log : List Entry) (was : SourceUnit) (e : Error) :
    unbuilt (log ++ [.refused was e]) = unbuilt log := by
  rw [unbuilt, List.rtakeWhile_concat_pos _ _ _ rfl, List.filterMap_append]
  exact List.append_nil _

/-- After a build everything is built. -/
@[simp] theorem unbuilt_built (log : List Entry) (request : List (Ref SourceUnit × SourceUnit))
    (outcome : Except Error (List (String × Ref LoadedArtifact))) :
    unbuilt (log ++ [.built request outcome]) = [] := by
  rw [unbuilt, List.rtakeWhile_concat_neg _ _ _ Bool.false_ne_true]
  rfl

/-- What is not built yet was accepted. -/
theorem accepted_of_mem_unbuilt (h : (u, was) ∈ unbuilt log) : .accepted u was ∈ log := by
  obtain ⟨e, he, heq⟩ := List.mem_filterMap.1 h
  have hmem : e ∈ log := (List.rtakeWhile_suffix _ log).mem he
  cases e with
  | accepted =>
    cases heq
    exact hmem
  | refused | built => cases heq

end Log

variable {c c' : Compiler} {s t : Store} {log : List Entry}

/-- **A build that was written down was done** by a compiler that had been used as it is written
down before. -/
theorem Run.exists_build {c₀ : Compiler} {s₀ : Store} (h : Run c₀ s₀ log c s)
    {before after : List Entry} {request : List (Ref SourceUnit × SourceUnit)}
    {outcome : Except Error (List (String × Ref LoadedArtifact))}
    (hlog : log = before ++ .built request outcome :: after) :
    ∃ (toolchain : Toolchain) (o : VisitOrder) (c' : Compiler) (s' : Store),
      Run c₀ s₀ before c' s' ∧ request = { c' with toolchain }.request s' ∧
        outcome = ({ c' with toolchain }.buildIn o s').outcome := by
  induction h generalizing after with
  | start => exact absurd hlog.symm (List.append_ne_nil_of_right_ne_nil _ (List.cons_ne_nil _ _))
  | snoc hrun hs ih =>
    rcases List.eq_nil_or_concat after with rfl | ⟨after, last, rfl⟩
    · obtain ⟨rfl, hlast⟩ := List.append_inj' hlog rfl
      obtain rfl := List.singleton_inj.1 hlast
      cases hs with
      | built toolchain o => exact ⟨toolchain, o, _, _, hrun, rfl, rfl⟩
    · rw [List.concat_eq_append, ← List.cons_append, ← List.append_assoc] at hlog
      exact ih (List.append_inj' hlog rfl).1
  | meanwhile _ _ ih => exact ih hlog

/-! ### What can be queued -/

/-- **What is queued and what is not:** a unit that is ready, under a name that is not queued. -/
theorem addUnit_eq_ok_iff {u : Ref SourceUnit} :
    c.addUnit u s = .ok c' ↔
      (s.units.get u).Ready ∧ (s.units.get u).name ∉ c.queuedNames s ∧
        c' = { c with queued := c.queued ++ [u] } := by
  unfold addUnit
  simp only
  split
  · rename_i hblank
    exact iff_of_false nofun fun h => absurd h.1.named (by rw [hblank]; decide)
  · rename_i hnamed
    split
    · rename_i hpending
      exact iff_of_false nofun fun h => absurd h.1.written (by rw [hpending]; decide)
    · rename_i hwritten
      split
      · rename_i hqueued
        exact iff_of_false nofun fun h => h.2.1 hqueued
      · rename_i hnew
        rw [Except.ok.injEq, eq_comm]
        have hready : (s.units.get u).Ready :=
          ⟨eq_false_of_ne_true hnamed, eq_false_of_ne_true hwritten⟩
        exact ⟨fun h => ⟨hready, hnew, h⟩, fun h => h.2.2⟩

/-- **A compiler with an empty queue accepts every unit that is ready.** -/
theorem addUnit_of_nil (hqueue : c.queued = []) {u : Ref SourceUnit} (hu : (s.units.get u).Ready) :
    c.addUnit u s = .ok { c with queued := [u] } := by
  refine addUnit_eq_ok_iff.2 ⟨hu, ?_, by rw [hqueue, List.nil_append]⟩
  rw [queuedNames, hqueue]
  exact List.not_mem_nil

/-- **A compiler with an empty queue accepts every text under a name.** -/
theorem addSource_of_nil (hqueue : c.queued = []) {name : String}
    (hname : Text.allBlank name.toList = false) (text : String) (s : Store) :
    (c.addSource name text s).1 = .ok { c with queued := [(s.newUnit ⟨name, some text⟩).1] } := by
  have hget : (s.newUnit ⟨name, some text⟩).2.units.get (s.newUnit ⟨name, some text⟩).1 =
      ⟨name, some text⟩ := Arena.get_alloc_self _ _
  have hready : ((s.newUnit ⟨name, some text⟩).2.units.get
      (s.newUnit ⟨name, some text⟩).1).Ready := by
    rw [hget]
    exact ⟨hname, rfl⟩
  exact addUnit_of_nil hqueue hready

/-! ### What a build keeps -/

/-- **A build keeps all texts,** however it ends. -/
theorem keepsTexts_buildIn (hparent : c.loader.parent.KeepsTexts) (o : VisitOrder) (s : Store) :
    s.KeepsTexts (c.buildIn o s).store := by
  have hsettled : s.KeepsTexts (c.settled s) :=
    settled_preserves (P := s.KeepsTexts) (.of_eq rfl)
      (fun b r h => h.trans (BuildState.keepsTexts_answer hparent b r))
      (fun t k h => h.trans ((c.files s).keepsTexts_perform t k))
  rw [buildIn_eq]
  exact c.conclude_preserves (P := s.KeepsTexts)
    (fun t r h => h.trans (.materialize c.loader.materializer r t)) o _ _ hsettled

/-! ### The queue follows what is written down -/

/-- The queue is what was accepted since the last build, and whatever was accepted is as it was
then. -/
structure Follows (log : List Entry) (c : Compiler) (s : Store) : Prop where
  parent : c.loader.parent.KeepsTexts
  queued : c.queued = (unbuilt log).map Prod.fst
  nodup : ((unbuilt log).map fun x => x.2.name).Nodup
  kept : ∀ u was, .accepted u was ∈ log → s.units.Live u ∧ s.units.get u = was ∧ was.Ready

namespace Follows

/-- In the beginning nothing is queued and nothing was accepted. -/
theorem start (hqueue : c.queued = []) (hparent : c.loader.parent.KeepsTexts) (s : Store) :
    Follows [] c s :=
  ⟨hparent, hqueue, List.nodup_nil, fun _ _ h => absurd h List.not_mem_nil⟩

variable (h : Follows log c s)
include h

/-- What is not built yet is as it was when it was accepted. -/
theorem get_eq {x : Ref SourceUnit × SourceUnit} (hx : x ∈ unbuilt log) : s.units.get x.1 = x.2 :=
  (h.kept x.1 x.2 (accepted_of_mem_unbuilt hx)).2.1

/-- The next build is given what was accepted since the last one. -/
theorem request_eq : c.request s = unbuilt log := by
  have hentry : ∀ x ∈ unbuilt log, (x.1, (c.opening s).store.units.get x.1) = x :=
    fun x hx => Prod.ext rfl (h.get_eq hx)
  rw [request, h.queued, List.map_map]
  exact (List.map_congr_left hentry).trans (List.map_id' _)

/-- **The next build lets its toolchain compile what was accepted since the last one,** whichever
toolchain that is. -/
theorem buildIn_eq (toolchain : Toolchain) (o : VisitOrder) :
    { c with toolchain }.buildIn o s = { c with toolchain }.buildBy o s
      (toolchain.compile ((unbuilt log).map Prod.fst) c.options.effective) := by
  rw [buildIn_eq_buildBy, ← h.queued]

/-- The names in the queue are those under which units were accepted since the last build. -/
theorem queuedNames_eq : c.queuedNames s = (unbuilt log).map fun x => x.2.name := by
  rw [queuedNames, h.queued, List.map_map]
  exact List.map_congr_left fun x hx => congrArg SourceUnit.name (h.get_eq hx)

/-- What is queued can be compiled. -/
theorem ready {u : Ref SourceUnit} (hu : u ∈ c.queued) : (s.units.get u).Ready := by
  rw [h.queued] at hu
  obtain ⟨x, hx, rfl⟩ := List.mem_map.1 hu
  obtain ⟨-, hget, hready⟩ := h.kept x.1 x.2 (accepted_of_mem_unbuilt hx)
  rwa [hget]

/-- What was ever accepted stays as it was then, as long as texts are kept. -/
theorem kept_of_keepsTexts (hst : s.KeepsTexts t) {u : Ref SourceUnit} {was : SourceUnit}
    (hu : .accepted u was ∈ log) : t.units.Live u ∧ t.units.get u = was ∧ was.Ready := by
  obtain ⟨hlive, hget, hready⟩ := h.kept u was hu
  refine ⟨hst.live u hlive, ?_, hready⟩
  rw [hst.written u hlive (by rw [hget]; exact hready.written), hget]

/-- The queue follows what is written down while anything else happens that keeps texts. -/
theorem of_keepsTexts (hst : s.KeepsTexts t) : Follows log c t :=
  ⟨h.parent, h.queued, h.nodup, fun _ _ hu => h.kept_of_keepsTexts hst hu⟩

/-- **A unit is accepted.** -/
theorem accept {u : Ref SourceUnit} (hu : s.units.Live u) (hadd : c.addUnit u s = .ok c') :
    Follows (log ++ [.accepted u (s.units.get u)]) c' s := by
  obtain ⟨hready, hnew, rfl⟩ := addUnit_eq_ok_iff.1 hadd
  rw [h.queuedNames_eq] at hnew
  refine ⟨h.parent, ?_, ?_, fun v was hv => ?_⟩
  · rw [unbuilt_accepted, List.map_append, ← h.queued]
    rfl
  · rw [unbuilt_accepted, List.map_append]
    exact List.nodup_append_comm.1 (List.nodup_cons.2 ⟨hnew, h.nodup⟩)
  · rcases List.mem_append.1 hv with hv | hv
    · exact h.kept v was hv
    · obtain ⟨rfl, rfl⟩ := Entry.accepted.inj (List.mem_singleton.1 hv)
      exact ⟨hu, rfl, hready⟩

/-- **A unit is refused,** and the queue is as it was. -/
theorem refuse (was : SourceUnit) (e : Error) : Follows (log ++ [.refused was e]) c s := by
  refine ⟨h.parent, ?_, ?_, fun v was' hv => ?_⟩
  · rw [unbuilt_refused, h.queued]
  · rw [unbuilt_refused]
    exact h.nodup
  · rcases List.mem_append.1 hv with hv | hv
    · exact h.kept v was' hv
    · cases List.mem_singleton.1 hv

/-- **The queue is compiled,** whatever comes of it. -/
theorem build (toolchain : Toolchain) (o : VisitOrder)
    (request : List (Ref SourceUnit × SourceUnit))
    (outcome : Except Error (List (String × Ref LoadedArtifact))) :
    Follows (log ++ [.built request outcome])
      ({ c with toolchain }.buildIn o s).compiler ({ c with toolchain }.buildIn o s).store := by
  have hkeeps : s.KeepsTexts ({ c with toolchain }.buildIn o s).store :=
    keepsTexts_buildIn (c := { c with toolchain }) h.parent o s
  refine ⟨h.parent, ?_, ?_, fun u was hu => ?_⟩
  · rw [unbuilt_built]
    rfl
  · rw [unbuilt_built]
    exact List.nodup_nil
  · rcases List.mem_append.1 hu with hu | hu
    · exact h.kept_of_keepsTexts hkeeps hu
    · cases List.mem_singleton.1 hu

/-- **Every use keeps the queue in step with what is written down.** -/
theorem step {e : Entry} (hs : Step c s e c' t) : Follows (log ++ [e]) c' t := by
  cases hs with
  | accepted hu hadd => exact h.accept hu hadd
  | refused => exact h.refuse _ _
  | @acceptedSource _ _ name text hadd =>
    obtain ⟨hunit, rfl⟩ := Prod.mk.inj hadd
    have hmade : s.KeepsTexts (s.newUnit ⟨name, some text⟩).2 := .of_newUnit _ rfl
    have hlive : (s.newUnit ⟨name, some text⟩).2.units.Live (s.newUnit ⟨name, some text⟩).1 :=
      Arena.live_alloc_self _ _
    have hget : (s.newUnit ⟨name, some text⟩).2.units.get (s.newUnit ⟨name, some text⟩).1 =
        ⟨name, some text⟩ := Arena.get_alloc_self _ _
    have haccepted := (h.of_keepsTexts hmade).accept hlive hunit
    rwa [hget] at haccepted
  | @refusedSource _ _ name text hadd =>
    obtain ⟨-, rfl⟩ := Prod.mk.inj hadd
    have hmade : s.KeepsTexts (s.newUnit ⟨name, some text⟩).2 := .of_newUnit _ rfl
    exact (h.of_keepsTexts hmade).refuse _ _
  | built toolchain o => exact h.build toolchain o _ _

end Follows

/-- **In every run the queue follows what is written down.** -/
theorem Run.follows {c₀ : Compiler} {s₀ : Store} (h : Run c₀ s₀ log c s) (hqueue : c₀.queued = [])
    (hparent : c₀.loader.parent.KeepsTexts) : Follows log c s := by
  induction h with
  | start => exact .start hqueue hparent s₀
  | snoc _ hs ih => exact ih.step hs
  | meanwhile _ hst ih => exact ih.of_keepsTexts hst

/-- **What is queued, and what a build is given.**  A compiler begins with an empty queue, and
is used any number of times, whatever its toolchains do.

* What is queued is what was accepted since the last build, in that order and as it was then:
  units with a name and a text, no two under one name.
* Every build let its toolchain compile exactly that, and its outcome is what came of it.  So
  does the next build, whichever toolchain it is done with.  Whatever that toolchain does, it finds
  these units as they were accepted.
* A unit is accepted exactly if it has a name and a text, and no unit of its name was accepted
  since the last build.  Where a unit or a text is refused, the queue and its units are as they
  were.
* After a build the queue is empty, however the build ended.  Every unit that was ever accepted
  is accepted then, and so is every text under its name. -/
theorem queue_of_run {c₀ c : Compiler} {s₀ s : Store} {log : List Entry} (hqueue : c₀.queued = [])
    (hparent : c₀.loader.parent.KeepsTexts) (h : Run c₀ s₀ log c s) :
    (c.request s = unbuilt log ∧ (c.queuedNames s).Nodup ∧
      ∀ u ∈ c.queued, (s.units.get u).Ready) ∧
    (∀ before request outcome after,
      log = before ++ .built request outcome :: after →
        request = unbuilt before ∧
        ∃ (toolchain : Toolchain) (o : VisitOrder) (c' : Compiler) (s' : Store),
          Run c₀ s₀ before c' s' ∧
          outcome = ({ c' with toolchain }.buildBy o s'
            (toolchain.compile (request.map Prod.fst) c'.options.effective)).outcome) ∧
    (∀ toolchain : Toolchain,
      (∀ o, { c with toolchain }.buildIn o s = { c with toolchain }.buildBy o s
        (toolchain.compile ((unbuilt log).map Prod.fst) c.options.effective)) ∧
      { c with toolchain }.work =
          toolchain.compile ((unbuilt log).map Prod.fst) c.options.effective ∧
        ∀ b r, (b, r) ∈ { c with toolchain }.work.transcript ({ c with toolchain }.files s)
            ({ c with toolchain }.opening s) →
          ∀ x ∈ unbuilt log, b.store.units.get x.1 = x.2) ∧
    (∀ u, (∃ c', c.addUnit u s = .ok c') ↔
      (s.units.get u).Ready ∧ (s.units.get u).name ∉ (unbuilt log).map fun x => x.2.name) ∧
    (∀ was e c' t, Step c s (.refused was e) c' t →
      c'.queued = c.queued ∧ c'.request t = c.request s) ∧
    ∀ (toolchain : Toolchain) (o : VisitOrder) (c' : Compiler) (t : Store),
      c' = ({ c with toolchain }.buildIn o s).compiler →
      t = ({ c with toolchain }.buildIn o s).store →
        c'.queued = [] ∧
        ∀ u was, .accepted u was ∈ log →
          c'.addUnit u t = .ok { c' with queued := [u] } ∧
          ∀ text, (c'.addSource was.name text t).1 =
            .ok { c' with queued := [(t.newUnit ⟨was.name, some text⟩).1] } := by
  have hfollows := h.follows hqueue hparent
  refine ⟨⟨hfollows.request_eq, ?_, fun u hu => hfollows.ready hu⟩,
    fun before request outcome after hlog => ?_,
    fun toolchain => ⟨hfollows.buildIn_eq toolchain, by rw [← hfollows.queued]; rfl,
      fun b r hr x hx => ?_⟩, fun u => ?_, fun was e c' t hs => ?_, ?_⟩
  · rw [hfollows.queuedNames_eq]
    exact hfollows.nodup
  · obtain ⟨toolchain, o, c', s', hrun, rfl, rfl⟩ := h.exists_build hlog
    -- the run up to that build is a run as well
    have hthen := hrun.follows hqueue hparent
    have hrequest : { c' with toolchain }.request s' = unbuilt before := hthen.request_eq
    rw [hrequest]
    exact ⟨rfl, toolchain, o, c', s', hrun, congrArg BuildResult.outcome (hthen.buildIn_eq ..)⟩
  · have hopening : s.KeepsTexts ({ c with toolchain }.opening s).store := .of_eq rfl
    have hkeeps := Interaction.keepsTexts_of_mem_transcript (m := { c with toolchain }.files s)
      hfollows.parent hr
    exact (hfollows.of_keepsTexts (hopening.trans hkeeps)).get_eq hx
  · rw [← hfollows.queuedNames_eq]
    constructor
    · rintro ⟨c', hadd⟩
      obtain ⟨hready, hnew, -⟩ := addUnit_eq_ok_iff.1 hadd
      exact ⟨hready, hnew⟩
    · rintro ⟨hready, hnew⟩
      exact ⟨_, addUnit_eq_ok_iff.2 ⟨hready, hnew, rfl⟩⟩
  · have hafter := hfollows.step hs
    refine ⟨?_, ?_⟩
    · rw [hafter.queued, unbuilt_refused, hfollows.queued]
    · rw [hafter.request_eq, unbuilt_refused, hfollows.request_eq]
  · rintro toolchain o c' t rfl rfl
    have hafter := hfollows.step (.built toolchain o)
    refine ⟨rfl, fun u was hu => ?_⟩
    obtain ⟨-, hget, hready⟩ := hafter.kept u was (List.mem_append_left _ hu)
    exact ⟨addUnit_of_nil rfl (by rwa [hget]), fun text => addSource_of_nil rfl hready.named text _⟩

/-- The store of the compiler that has queued the source A, after another source of this name
was offered to it. -/
def offeredTwice : Store := ((echo "B").2.newUnit ⟨"A", some "b"⟩).2

/-- Another source of the queued name is refused. -/
theorem addSource_echo :
    (echo "B").1.addSource "A" "b" (echo "B").2 =
      (.error (.invalidSource (.queued "A")), offeredTwice) := by
  have hunit : offeredTwice.units.get ⟨1⟩ = ⟨"A", some "b"⟩ :=
    Arena.get_alloc_self (echo "B").2.units _
  have hblank : ¬ Text.allBlank "A".toList = true := by decide +kernel
  have hwritten : ¬ (⟨"A", some "b"⟩ : SourceUnit).isPending = true := by decide
  have hqueued : "A" ∈ (echo "B").1.queuedNames offeredTwice := by decide +kernel
  have hadd : (echo "B").1.addUnit ⟨1⟩ offeredTwice = .error (.invalidSource (.queued "A")) := by
    simp only [addUnit, hunit]
    rw [if_neg hblank, if_neg hwritten, if_pos hqueued]
  exact Prod.ext hadd rfl

/-- What is done with a compiler that begins idle: the source A is accepted, and another one of
this name is refused. -/
theorem run_echo :
    Run (idleEcho "B").1 (idleEcho "B").2
      [.accepted ⟨0⟩ ⟨"A", some "a"⟩, .refused ⟨"A", some "b"⟩ (.invalidSource (.queued "A"))]
      (echo "B").1 offeredTwice :=
  (Run.start.snoc (.acceptedSource (addSource_idleEcho "B"))).snoc (.refusedSource addSource_echo)

/-- The diagnostic that says which text a unit has. -/
def recital (u : SourceUnit) : Diagnostic :=
  ⟨.note, some u.name, none, none, none, u.content.getD "nothing"⟩

/-- A toolchain that looks at the units it is given, reports their names and texts, and panics. -/
def reciting : Toolchain where
  name := "reciting"
  compile units _ := do
    let given ← Interaction.each Interaction.unit units
    Interaction.report (given.map recital)
    Interaction.panic none

/-- The compiler that has queued the source A, with this toolchain. -/
def reciter : Compiler := { (echo "B").1 with toolchain := reciting }

/-- Of two sources of one name a toolchain is given the first one alone, and what it reports before
it panics says so.  The same unit is accepted again, for the next build. -/
theorem queue_of_run_reciting :
    reciter.buildIn .increasing offeredTwice =
        reciter.buildBy .increasing offeredTwice (reciting.compile [⟨0⟩] reciter.options.effective) ∧
      reciter.ending offeredTwice = .panicked none ∧
      ∃ c t, Run (idleEcho "B").1 (idleEcho "B").2
          [.accepted ⟨0⟩ ⟨"A", some "a"⟩,
            .refused ⟨"A", some "b"⟩ (.invalidSource (.queued "A")),
            .built [(⟨0⟩, ⟨"A", some "a"⟩)] (.error (.compilation (.broken
              (.toolchain (.panicked "reciting" none))
              (Classified.ofDiagnostics [recital ⟨"A", some "a"⟩])))),
            .accepted ⟨0⟩ ⟨"A", some "a"⟩] c t ∧
        c.queued = [⟨0⟩] ∧ c.request t = [(⟨0⟩, ⟨"A", some "a"⟩)] := by
  have hparent : (idleEcho "B").1.loader.parent.KeepsTexts :=
    Host.keeps_empty Store.KeepsTexts.bearsLoading
  obtain ⟨⟨hrequest, -⟩, -, hcompile, -, -, hbuild⟩ := queue_of_run rfl hparent run_echo
  have hrequest' : reciter.request offeredTwice = [(⟨0⟩, ⟨"A", some "a"⟩)] := hrequest
  have hending : reciter.ending offeredTwice = .panicked none := rfl
  have htold : reciter.told offeredTwice = [recital ⟨"A", some "a"⟩] := rfl
  have houtcome : (reciter.buildIn .increasing offeredTwice).outcome =
      .error (.compilation (.broken (.toolchain (.panicked "reciting" none))
        (Classified.ofDiagnostics [recital ⟨"A", some "a"⟩]))) := by
    rw [outcome_buildIn, hending, htold]
    rfl
  have hbuilt : Run (idleEcho "B").1 (idleEcho "B").2
      (_ ++ [.built (reciter.request offeredTwice)
        (reciter.buildIn .increasing offeredTwice).outcome])
      (reciter.buildIn .increasing offeredTwice).compiler
      (reciter.buildIn .increasing offeredTwice).store :=
    run_echo.snoc (.built reciting .increasing)
  rw [hrequest', houtcome] at hbuilt
  obtain ⟨-, hagain⟩ := hbuild reciting .increasing _ _ rfl rfl
  have hadd := (hagain ⟨0⟩ ⟨"A", some "a"⟩ (List.mem_cons_self ..)).1
  have hfollows := hbuilt.follows rfl hparent
  obtain ⟨hlive, hget, -⟩ := hfollows.kept ⟨0⟩ ⟨"A", some "a"⟩ (List.mem_cons_self ..)
  have hrun := hbuilt.snoc (.accepted hlive hadd)
  rw [hget] at hrun
  have hlast := hrun.follows rfl hparent
  refine ⟨(hcompile reciting).1 .increasing, hending, _, _, hrun, rfl, hlast.request_eq.trans ?_⟩
  exact (unbuilt_accepted _ _ _).trans (by rw [unbuilt_built]; rfl)

end Compiler
end LiveBuild
