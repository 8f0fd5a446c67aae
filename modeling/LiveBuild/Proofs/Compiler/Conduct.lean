/-
# Builds are courses

Whatever a toolchain asks for, only five things ever happen to the artifacts of its loader:
every request is a course of them, and the deeds of that course are those that the request
names (`course_answer`).  So a whole run is one (`course_run`), a resolution is one
(`course_resolve`), and a build is one (`course_buildIn`): the deeds of its toolchain, and
then, if it comes to that, all the names that are materialized.

The loader is made over a store, and its parent keeps to itself (`MadeOver`).
-/

import LiveBuild.Proofs.Compiler.Outcome
import LiveBuild.Proofs.Loader.Lasting

namespace LiveBuild

namespace Loader

/-- A loader that is younger than everything in `origin`, over a parent that does nothing to
what is younger. -/
structure MadeOver (l : Loader) (origin : Store) : Prop where
  fresh : ¬ origin.namespaces.Live l.owned
  apart : l.parent.Apart origin

/-- A new loader is made over a parent that keeps to itself. -/
theorem madeOver_new {parent : Host} {origin : Store} (h : parent.Apart origin) (m : Materializer) :
    (Loader.new parent m origin).1.MadeOver origin := ⟨Nat.lt_irrefl _, h⟩

/-- A new loader has a namespace of its own, and the others are as they were. -/
theorem keepsNamespaces_new (parent : Host) (m : Materializer) (origin : Store) :
    origin.KeepsNamespaces (Loader.new parent m origin).2 :=
  fun _ hns => Arena.get_alloc_of_live _ hns

variable {l : Loader} {origin s t : Store} {log ds : List Deed}

/-- A course changes no namespace that is older than the loader. -/
theorem Course.keepsNamespaces {base : Nat} (hl : l.MadeOver origin) (h : l.Course base s ds t)
    (hs : origin.KeepsNamespaces s) : origin.KeepsNamespaces t :=
  h.preserves (fun hst => hst.keepsNamespaces hl.fresh) hs

/-- **To resolve a name is a course:** an owned artifact is loaded, and the parent keeps to
itself. -/
theorem course_resolve (hl : l.MadeOver origin) (hs : origin.KeepsNamespaces s) (name : String) :
    l.Course origin.artifacts.size s (l.lookups [name] s) ((l.resolve name).attempt s).2 := by
  cases h : l.artifact? name s with
  | none =>
    rw [store_resolve_of_unowned h, lookups, List.filterMap_cons_none (by rw [h, Option.map_none])]
    exact .of_spares (hl.apart name s hs)
  | some r =>
    rw [resolve_of_owned h, lookups, List.filterMap_cons_some (by rw [h, Option.map_some])]
    exact .of_step (.loaded h)

end Loader

variable {m : FileManager} {origin : Store} {b : BuildState}

/-- To ask for the sink of an artifact registers a new one, unless it was asked for before. -/
theorem FileManager.course_artifactFor (m : FileManager) (base : Nat) (name : String) (kind : Kind)
    (s : Store) :
    m.loader.Course base s
      (if ((m.asked s).artifacts.find? name).isSome then []
        else [.created name (s.artifacts.alloc (.new name kind)).1])
      (m.artifactFor name kind s).2 := by
  unfold artifactFor
  cases h : (m.asked s).artifacts.find? name with
  | some r => exact .nil
  | none => exact (Loader.Course.of_step (.created s name kind)).snoc (.spared (.of_eq _ rfl rfl rfl))

/-- To ask for a source is no deed. -/
theorem FileManager.course_sourceFor (m : FileManager) (base : Nat) (name : String) (s : Store) :
    m.loader.Course base s [] (m.sourceFor name s).2 := by
  unfold sourceFor
  cases h : (m.asked s).sources.find? name with
  | some r => exact .nil
  | none => exact .of_spares (.of_eq _ rfl rfl rfl)

/-- A write is a deed if it is not refused and its artifact exists. -/
theorem Loader.course_writeArtifact (l : Loader) (base : Nat) (a : Ref Artifact) (bytes : Bytes)
    (s : Store) :
    l.Course base s
      (if s.artifacts.Live a ∧ ((Store.writeArtifact a bytes).attempt s).1.isOk then
        [.wrote a bytes] else [])
      ((Store.writeArtifact a bytes).attempt s).2 := by
  unfold Action.attempt Store.writeArtifact
  cases hw : (s.artifacts.get a).write bytes with
  | error e =>
    simp only [Except.isOk, Except.toBool, Bool.false_eq_true, and_false, if_false]
    exact .nil
  | ok v =>
    simp only [Except.isOk, Except.toBool, and_true]
    by_cases hlive : s.artifacts.Live a
    · rw [if_pos hlive]
      exact .of_step (.wrote hlive hw)
    · rw [if_neg hlive]
      exact .of_spares (.of_set _ (.inr hlive) rfl rfl rfl)

/-- To write a source is no deed. -/
theorem Loader.course_writeUnit (l : Loader) (base : Nat) (u : Ref SourceUnit) (bytes : Bytes)
    (s : Store) : l.Course base s [] ((Store.writeUnit u bytes).attempt s).2 := by
  unfold Action.attempt Store.writeUnit
  cases (s.units.get u).write bytes with
  | error e => exact .nil
  | ok v => exact .of_spares (.of_eq _ rfl rfl rfl)

/-- To run a program is no deed. -/
theorem Loader.course_execute (l : Loader) (base : Nat) (program : Path) (arguments : List String)
    (stdin : Bytes) (s : Store) :
    l.Course base s [] (s.execute program arguments stdin).2 := by
  obtain ⟨processes, hx⟩ := s.store_execute program arguments stdin
  rw [hx]
  exact .of_spares (.of_eq _ rfl rfl rfl)

/-- **Every request is a course,** and its deeds are those that the request names. -/
theorem BuildState.course_answer (hm : m.loader.MadeOver origin)
    (hb : origin.KeepsNamespaces b.store) (r : Request) :
    m.loader.Course origin.artifacts.size b.store (b.deeds m r) (b.answer m r).2.store := by
  cases r with
  | outputFor location name kind sibling =>
    show m.loader.Course _ _ _ (m.outputFor location name kind sibling b.store).2
    rw [deeds, FileManager.outputFor]
    by_cases hk : kind = .source
    · rw [if_pos (.inl hk), if_pos hk]
      exact m.course_sourceFor _ name b.store
    · simp only [hk, false_or, if_false]
      exact m.course_artifactFor _ name kind b.store
  | write sink bytes =>
    cases sink with
    | artifact a => exact m.loader.course_writeArtifact _ a bytes b.store
    | source u => exact m.loader.course_writeUnit _ u bytes b.store
  | find location name =>
    show m.loader.Course _ _ _ ((m.loader.find? name).attempt b.store).2
    rw [Loader.store_find?]
    exact Loader.course_resolve hm hb name
  | execute program arguments stdin => exact m.loader.course_execute _ program arguments stdin b.store
  | takeGenerated => exact .of_spares (.of_eq _ rfl rfl rfl)
  | note journal event => exact .of_spares (.of_eq _ rfl rfl rfl)
  | list | binaryName | same | loaded | resources | read | unit | report => exact .nil

/-- **A run is a course.** -/
theorem Interaction.course_run {α : Type} (hm : m.loader.MadeOver origin)
    (hb : origin.KeepsNamespaces b.store) (x : Interaction α) :
    m.loader.Course origin.artifacts.size b.store (x.deeds m b) (x.run m b).2.store := by
  induction x generalizing b with
  | done a => exact .nil
  | fail e => exact .nil
  | panic message => exact .nil
  | ask r next ih =>
    have hstep := BuildState.course_answer hm hb r
    have hrest := ih (b.answer m r).1 (hstep.keepsNamespaces hm hb)
    rw [deeds, transcript, List.flatMap_cons]
    exact hstep.trans hrest

namespace Compiler

/-- The deeds of a build: those of its toolchain, and if nothing went wrong by then, that
every owned name is loaded. -/
def deeds (c : Compiler) (o : VisitOrder) (s : Store) : List Deed :=
  c.work.deeds (c.files s) (c.opening s) ++
    match c.ending s with
    | .finished _ =>
      if (Classified.ofDiagnostics (c.told s)).hasErrors then []
      else c.loader.lookups (o.names (c.loader.table (c.settled s))) (c.settled s)
    | _ => []

variable {c : Compiler} {s : Store} {log : List Deed}

/-- What the toolchain does, and that its outputs are finished then, is a course. -/
theorem course_settled (hc : c.loader.MadeOver origin) (hs : origin.KeepsNamespaces s) :
    c.loader.Course origin.artifacts.size s (c.work.deeds (c.files s) (c.opening s))
      (c.settled s) := by
  have hopen : c.loader.Course origin.artifacts.size s [] (c.opening s).store :=
    .of_spares (.of_eq _ rfl rfl rfl)
  have hwork : c.loader.Course origin.artifacts.size (c.opening s).store
      (c.work.deeds (c.files s) (c.opening s)) (c.closing s).store :=
    Interaction.course_run (m := c.files s) hc (hopen.keepsNamespaces hc hs) c.work
  have hfinish : c.loader.Course origin.artifacts.size (c.closing s).store []
      ((c.files s).finish (c.closing s).store) := .finalizeAll ..
  have htake : c.loader.Course origin.artifacts.size ((c.files s).finish (c.closing s).store) []
      (c.settled s) := .of_spares (.of_eq _ rfl rfl rfl)
  have hall := ((hopen.trans hwork).trans hfinish).trans htake
  rwa [List.nil_append, List.append_nil, List.append_nil] at hall

/-- **When a build succeeds, every name that it maps holds what it is mapped to,** and what was
mapped is what bulk materialization answered. -/
theorem materializeAll_of_buildIn {o : VisitOrder} {built : List (String × Ref LoadedArtifact)}
    (h : (c.buildIn o s).outcome = .ok built) :
    (Classified.ofDiagnostics (c.told s)).hasErrors = false ∧
      (c.loader.materializeAll (o.names (c.loader.table (c.settled s)))).attempt (c.settled s) =
        (.ok built, (c.buildIn o s).store) := by
  rw [buildIn_eq] at h ⊢
  cases hend : c.ending s with
  | failed e =>
    rw [hend] at h
    cases h
  | panicked message =>
    rw [hend] at h
    cases h
  | finished verdict =>
    rw [hend] at h
    rcases hconclude : (c.conclude o (.finished verdict) (c.told s)).attempt (c.settled s) with
      ⟨e | built', t⟩
    · rw [hconclude] at h
      cases h
    · rw [hconclude] at h
      cases h
      rw [Action.attempt_eq_ok_iff] at hconclude ⊢
      cases hd : (Classified.ofDiagnostics (c.told s)).hasErrors with
      | true =>
        simp only [conclude, hd, if_true] at hconclude
        cases hconclude
      | false =>
        refine ⟨rfl, ?_⟩
        simp only [conclude, hd, Bool.false_eq_true, if_false, Loader.allMaterializedIn] at hconclude
        cases hall : c.loader.materializeAll (o.names (c.loader.table (c.settled s))) (c.settled s) with
        | ok rest u =>
          rw [hall] at hconclude
          exact hconclude
        | error e u =>
          rw [hall] at hconclude
          cases hconclude

/-- **A build is a course.** -/
theorem course_buildIn {id : Nat} (hl : c.loader.materializer = .image id)
    (hc : c.loader.MadeOver origin) (hs : origin.KeepsNamespaces s) (o : VisitOrder) :
    c.loader.Course origin.artifacts.size s (c.deeds o s) (c.buildIn o s).store := by
  have hsettled := course_settled hc hs
  rw [buildIn_eq, deeds]
  cases hend : c.ending s with
  | failed e =>
    rw [List.append_nil]
    exact hsettled
  | panicked message =>
    rw [List.append_nil]
    exact hsettled
  | finished verdict =>
    cases hd : (Classified.ofDiagnostics (c.told s)).hasErrors with
    | true =>
      have hconclude : (c.conclude o (.finished verdict) (c.told s)).attempt (c.settled s) =
          (.error (.compilation (.diagnosed (Classified.ofDiagnostics (c.told s)))), c.settled s) := by
        rw [Action.attempt_eq_error_iff]
        simp only [conclude, hd, if_true]
      rw [hconclude]
      simp only [if_true, List.append_nil]
      exact hsettled
    | false =>
      obtain ⟨built, t, hall, hcourse⟩ := Loader.materializeAll_image hl origin.artifacts.size
        (o.names (c.loader.table (c.settled s))) (c.settled s)
      have hconclude : (c.conclude o (.finished verdict) (c.told s)).attempt (c.settled s) =
          (.ok built, t) := by
        rw [Action.attempt_eq_ok_iff] at hall ⊢
        simp only [conclude, hd, Bool.false_eq_true, if_false, Loader.allMaterializedIn, hall]
      rw [hconclude]
      exact hsettled.trans hcourse

end Compiler
end LiveBuild
