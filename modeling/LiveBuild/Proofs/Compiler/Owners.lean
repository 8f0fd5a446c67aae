/-
# Who owns a name after builds

A build concerns the names for which its toolchain asks for an output other than a source.
Whatever becomes of the build, each of them then belongs to a new artifact, which is finished;
every other name stays with its artifact (`Compiler.takesIn_buildIn`).

A loader outlives its builds, and names may be registered in between.  What takes names over,
a build or a registration, is a `Takeover`; a `Succession` is all that happens to a loader, its
takeovers newest first.  So a name belongs to the artifact that took it over last
(`Succession.owner`), and everything that any build gave to its toolchain is finished for good
(`Succession.given`).  `owners_of_build` puts this together for one more build.
-/

import LiveBuild.Proofs.Compiler.Outcome
import LiveBuild.Proofs.Loader.Lasting
import LiveBuild.Proofs.Toolchain.Given
import LiveBuild.StandardFiles.Directories

namespace LiveBuild

/-- Artifacts are taken in under names: they are new and finished, and own their names; every
other name stays with its owner. -/
structure Loader.TakesIn (l : Loader) (given : List (String × Ref Artifact)) (s t : Store) :
    Prop where
  continues : s.Continues t
  owner : ∀ name, l.artifact? name t = (given.lookup name).or (l.artifact? name s)
  new : ∀ e ∈ given, ¬ s.artifacts.Live e.2 ∧ t.artifacts.Live e.2 ∧
    (t.artifacts.get e.2).name = e.1 ∧ (t.artifacts.get e.2).isFinalized = true

namespace Compiler

/-- The names of the outputs other than sources that the toolchain of a build asks for. -/
def outputNames (c : Compiler) (s : Store) : List String :=
  c.work.outputNames (c.files s) (c.opening s)

/-- The artifacts that the toolchain of a build is given, each with the name that it is given
for. -/
def given (c : Compiler) (s : Store) : List (String × Ref Artifact) :=
  c.work.given (c.files s) (c.opening s)

/-- **For every output that it asks for the toolchain is given an artifact.** -/
theorem mem_outputNames_iff (c : Compiler) (s : Store) (name : String) :
    name ∈ c.outputNames s ↔ ∃ r, (name, r) ∈ c.given s := by
  rw [outputNames, ← Interaction.map_fst_given, List.mem_map]
  constructor
  · rintro ⟨⟨n, r⟩, he, rfl⟩
    exact ⟨r, he⟩
  · rintro ⟨r, he⟩
    exact ⟨_, he, rfl⟩

/-- **What every single materialization preserves, the end of a build preserves,** whatever the
build comes to. -/
theorem conclude_preserves {P : Store → Prop} (c : Compiler)
    (hP : ∀ s r, P s → P ((Store.materialize c.loader.materializer r).attempt s).2)
    (o : VisitOrder) (outcome : Outcome Bool) (reported : List Diagnostic) {s : Store} (hs : P s) :
    P ((c.conclude o outcome reported).attempt s).2 := by
  cases outcome with
  | failed _ | panicked _ => exact hs
  | finished verdict =>
    have hall : P ((c.loader.allMaterializedIn o).attempt s).2 :=
      Loader.materializeAll_preserves hP (o.names (c.loader.table s)) hs
    unfold Action.attempt conclude at *
    by_cases hd : (Classified.ofDiagnostics reported).hasErrors
    · simp only [hd, if_true]
      exact hs
    · simp only [hd, if_false, Bool.false_eq_true]
      cases hx : c.loader.allMaterializedIn o s <;>
        · rw [hx] at hall
          exact hall

/-- Whatever a build comes to, nothing is registered when its toolchain is done. -/
theorem steady_conclude (c : Compiler) (o : VisitOrder) (outcome : Outcome Bool)
    (reported : List Diagnostic) (s : Store) :
    s.Steady ((c.conclude o outcome reported).attempt s).2 :=
  c.conclude_preserves (P := s.Steady)
    (fun t r h => h.trans (Store.steady_materialize c.loader.materializer r t)) o outcome reported
    (.refl s)

variable {c : Compiler} {s : Store}

/-- When the toolchain of a build is done, the build is under way. -/
theorem underway_closing (hparent : c.loader.parent.Steady) :
    (c.files s).Underway s (c.closing s).store :=
  (FileManager.Underway.start c.standard c.loader c.finder s).run hparent c.work

/-- The store when everything that a build asked for is finished. -/
def finished (c : Compiler) (s : Store) : Store := (c.files s).finish (c.closing s).store

/-- To finish what was asked for registers nothing. -/
theorem rests_finished (c : Compiler) (s : Store) :
    (c.files s).Rests (c.closing s).store (c.finished s) :=
  .of_steady _ (Store.steady_finalizeAll _ _)

/-- When the toolchain is done, nothing more is registered. -/
theorem rests_buildIn (c : Compiler) (o : VisitOrder) (s : Store) :
    (c.files s).Rests (c.finished s) (c.buildIn o s).store := by
  have htake : (c.files s).Rests (c.finished s) (c.settled s) := .takeGenerated _ _
  rw [buildIn_eq]
  exact htake.trans (.of_steady _ (c.steady_conclude o _ _ _))

/-- **What was asked for is finished,** whichever way the toolchain ended. -/
theorem isFinalized_finished {name : String} {r : Ref Artifact}
    (h : ((c.files s).asked (c.closing s).store).artifacts.find? name = some r) :
    ((c.finished s).artifacts.get r).isFinalized = true := by
  have hr : r ∈ (c.files s).artifacts (c.closing s).store :=
    List.mem_map.2 ⟨(name, r), (Table.find?_eq_some_iff _ _ _).1 h, rfl⟩
  exact Store.isFinalized_finalizeAll hr _

/-- What is found for a name when the toolchain is done is what the toolchain was given for it. -/
theorem lookup_given (hparent : c.loader.parent.Steady) (name : String) :
    ((c.files s).asked (c.closing s).store).artifacts.find? name = (c.given s).lookup name := by
  have hrun := FileManager.find?_run (m := c.files s) hparent c.work (c.opening s) name
  have hopen : (c.files s).asked (c.opening s).store = .none :=
    FileManager.asked_new c.standard c.loader c.finder s
  rw [hopen] at hrun
  exact hrun

/-- **A build takes in what its toolchain was given,** however it ends. -/
theorem takesIn_buildIn (hparent : c.loader.parent.Steady) (o : VisitOrder) (s : Store) :
    c.loader.TakesIn (c.given s) s (c.buildIn o s).store := by
  have hdone := (underway_closing (s := s) hparent).rests (c.rests_finished s)
  have hrests := (c.rests_finished s).trans (c.rests_buildIn o s)
  have hend := (underway_closing (s := s) hparent).rests hrests
  refine ⟨hend.continues, fun name => ?_, fun e he => ?_⟩
  · have howner := hend.owner name
    rwa [hrests.artifacts, lookup_given hparent] at howner
  · have hfind : ((c.files s).asked (c.closing s).store).artifacts.find? e.1 = some e.2 :=
      FileManager.find?_run_of_mem_given (m := c.files s) hparent he
    obtain ⟨hnew, hlive, hname⟩ := hend.new e.1 e.2 (by rw [hrests.artifacts, hfind])
    obtain ⟨-, hlive', -⟩ := hdone.new e.1 e.2 (by rw [(c.rests_finished s).artifacts, hfind])
    have hlasts := ((c.rests_buildIn o s).continues.artifact e.2 hlive').2
    exact ⟨hnew, hlive, hname, (hlasts.finished (isFinalized_finished hfind)).1⟩

end Compiler

/-! ### One build after the other -/

/-- What takes names over. -/
inductive Takeover where
  /-- A build, with the artifacts that its toolchain was given. -/
  | build (given : List (String × Ref Artifact))
  | register (name : String) (artifact : Ref Artifact)

namespace Takeover

/-- The artifact that takes a name over, if one does. -/
def owner? (name : String) : Takeover → Option (Ref Artifact)
  | .build given => given.lookup name
  | .register n r => if n = name then some r else none

/-- The artifacts that a toolchain was given, each with the name that it was given for. -/
def given : Takeover → List (String × Ref Artifact)
  | .build given => given
  | .register .. => []

end Takeover

namespace Loader

/-- Every owned artifact exists. -/
def OwnsLive (l : Loader) (s : Store) : Prop :=
  ∀ name r, l.artifact? name s = some r → s.artifacts.Live r

/-- What happens to a loader, its takeovers newest first: builds of any compilers that share it,
registrations, and in the meantime things under which its names stay with their owners and
every artifact goes on. -/
inductive Succession (l : Loader) (origin : Store) : List Takeover → Store → Prop
  | start : Succession l origin [] origin
  | build {s : Store} {ts : List Takeover} (h : Succession l origin ts s) (c : Compiler)
    (hc : c.loader = l) (o : VisitOrder) :
    Succession l origin (.build (c.given s) :: ts) (c.buildIn o s).store
  | register {s : Store} {ts : List Takeover} (h : Succession l origin ts s) {r : Ref Artifact}
    (hr : s.artifacts.Live r) :
    Succession l origin (.register (s.artifacts.get r).name r :: ts) (l.register r s).2
  | meanwhile {s t : Store} {ts : List Takeover} (h : Succession l origin ts s)
    (hst : s.Continues t) (htable : l.table t = l.table s) : Succession l origin ts t

/-- The artifact that took a name over last, if any did. -/
def lastOwner? (ts : List Takeover) (name : String) : Option (Ref Artifact) :=
  ts.findSome? (Takeover.owner? name)

/-- What a succession comes to. -/
structure Succeeded (l : Loader) (origin : Store) (ts : List Takeover) (s : Store) : Prop where
  live : l.OwnsLive s
  owner : ∀ name, l.artifact? name s = (lastOwner? ts name).or (l.artifact? name origin)
  given : ∀ e ∈ ts.flatMap Takeover.given, s.artifacts.Live e.2 ∧
    (s.artifacts.get e.2).name = e.1 ∧ (s.artifacts.get e.2).isFinalized = true

namespace Succeeded

variable {l : Loader} {origin s t : Store} {ts : List Takeover}

/-- What was given stays finished under its name. -/
theorem given_of_continues (h : l.Succeeded origin ts s) (hst : s.Continues t) :
    ∀ e ∈ ts.flatMap Takeover.given, t.artifacts.Live e.2 ∧
      (t.artifacts.get e.2).name = e.1 ∧ (t.artifacts.get e.2).isFinalized = true := by
  intro e he
  obtain ⟨hlive, hname, hfinished⟩ := h.given e he
  obtain ⟨hlive', hone⟩ := hst.artifact e.2 hlive
  exact ⟨hlive', hone.name.trans hname, (hone.finished hfinished).1⟩

/-- One more takeover decides for the names that it takes, and the last one before for all others.
-/
theorem owner_cons (h : l.Succeeded origin ts s) {k : Takeover}
    (hk : ∀ name, l.artifact? name t = (k.owner? name).or (l.artifact? name s)) (name : String) :
    l.artifact? name t = (lastOwner? (k :: ts) name).or (l.artifact? name origin) := by
  rw [hk, h.owner, lastOwner?, lastOwner?, List.findSome?_cons]
  cases k.owner? name <;> rfl

/-- **A build takes over the names of its outputs,** for good. -/
theorem takesIn {given : List (String × Ref Artifact)} (h : l.Succeeded origin ts s)
    (hst : l.TakesIn given s t) : l.Succeeded origin (.build given :: ts) t where
  live name r hr := by
    rw [hst.owner] at hr
    rcases Option.or_eq_some_iff.1 hr with hgiven | ⟨-, hold⟩
    · obtain ⟨before, after, he, -⟩ := List.lookup_eq_some_iff.1 hgiven
      exact (hst.new (name, r) (by rw [he]; simp)).2.1
    · exact hst.continues.live (h.live name r hold)
  owner := h.owner_cons hst.owner
  given e he := by
    rcases List.mem_append.1 he with he | he
    · exact (hst.new e he).2
    · exact h.given_of_continues hst.continues e he

/-- **A registration takes over one name.** -/
theorem register (h : l.Succeeded origin ts s) {r : Ref Artifact} (hr : s.artifacts.Live r) :
    l.Succeeded origin (.register (s.artifacts.get r).name r :: ts) (l.register r s).2 where
  live name r' hr' := by
    rw [artifact?_register] at hr'
    split at hr'
    · obtain rfl := Option.some.inj hr'
      exact hr
    · exact h.live name r' hr'
  owner := by
    refine h.owner_cons fun name => ?_
    rw [artifact?_register, Takeover.owner?]
    split <;> rfl
  given := h.given_of_continues (.of_eq rfl rfl)

/-- Where artifacts go on and owners stay, nothing is taken over. -/
theorem meanwhile (h : l.Succeeded origin ts s) (hst : s.Continues t)
    (htable : l.table t = l.table s) : l.Succeeded origin ts t where
  live name r hr := by
    rw [artifact?, htable] at hr
    exact hst.live (h.live name r hr)
  owner name := by
    rw [artifact?, htable]
    exact h.owner name
  given := h.given_of_continues hst

end Succeeded

/-- **A name belongs to the artifact that took it over last,** and what any build gave to its
toolchain is finished. -/
theorem Succession.succeeded {l : Loader} {origin s : Store} {ts : List Takeover}
    (hparent : l.parent.Steady) (howned : l.OwnsLive origin) (h : l.Succession origin ts s) :
    l.Succeeded origin ts s := by
  induction h with
  | start => exact ⟨howned, fun _ => rfl, fun _ he => absurd he List.not_mem_nil⟩
  | build _ c hc o ih =>
    subst hc
    exact ih.takesIn (Compiler.takesIn_buildIn hparent o _)
  | register _ hr ih => exact ih.register hr
  | meanwhile _ hst htable ih => exact ih.meanwhile hst htable

variable {l : Loader} {origin s : Store} {ts : List Takeover}

/-- What registers nothing is no takeover. -/
theorem Succession.steady (h : l.Succession origin ts s) {t : Store} (hst : s.Steady t) :
    l.Succession origin ts t :=
  .meanwhile h hst.continues (by rw [table, table, hst.namespaces])

/-- **Who owns what after one more build,** however it ends and whatever came before it.

* A name for which its toolchain asked for an output other than a source belongs to a new
  artifact, which is finished.
* Every other name belongs to whom it belonged, and no name is lost.
* Every earlier artifact keeps its name, its kind and what was made of it; what an earlier build
  gave to its toolchain keeps its bytes too.
* A write to an artifact that this build or an earlier one gave to its toolchain is refused at
  any later time, and changes nothing.
* So a name belongs to the artifact of the last build that asked for it, unless something was
  registered under it after that. -/
theorem owners_of_build (hparent : l.parent.Steady) (howned : l.OwnsLive origin)
    (hs : l.Succession origin ts s) (c : Compiler) (hc : c.loader = l) (o : VisitOrder) :
    let t := (c.buildIn o s).store
    let ts' := .build (c.given s) :: ts
    (∀ name ∈ c.outputNames s, ∃ r, (name, r) ∈ c.given s ∧ l.artifact? name t = some r ∧
        ¬ s.artifacts.Live r ∧ t.artifacts.Live r ∧ (t.artifacts.get r).name = name ∧
        (t.artifacts.get r).isFinalized = true) ∧
      (∀ name, name ∉ c.outputNames s → l.artifact? name t = l.artifact? name s) ∧
      (∀ name r, l.artifact? name s = some r →
        s.artifacts.Live r ∧ ∃ r', l.artifact? name t = some r') ∧
      (∀ r, s.artifacts.Live r → t.artifacts.Live r ∧
        (t.artifacts.get r).name = (s.artifacts.get r).name ∧
        (t.artifacts.get r).kind = (s.artifacts.get r).kind ∧
        (∀ h, (s.artifacts.get r).loaded = some h → (t.artifacts.get r).loaded = some h) ∧
        (∀ name, (name, r) ∈ ts.flatMap Takeover.given →
          (t.artifacts.get r).bytes = (s.artifacts.get r).bytes)) ∧
      (∀ name r, (name, r) ∈ ts'.flatMap Takeover.given → ∀ u, t.Continues u → ∀ bytes,
        ((Sink.artifact r).write bytes).attempt u = (.error (.artifactFinalized name), u)) ∧
      ∀ name, l.artifact? name t = (lastOwner? ts' name).or (l.artifact? name origin) := by
  intro t ts'
  have hbefore := hs.succeeded hparent howned
  have hafter : l.Succeeded origin ts' t :=
    (Succession.build hs c hc o).succeeded hparent howned
  have htakes : l.TakesIn (c.given s) s t := by
    subst hc
    exact Compiler.takesIn_buildIn hparent o s
  -- what the toolchain was given last under a name decides who owns it
  have hlookup : ∀ name r, (c.given s).lookup name = some r → (name, r) ∈ c.given s := by
    intro name r h
    obtain ⟨before, after, he, -⟩ := List.lookup_eq_some_iff.1 h
    rw [he]
    simp
  refine ⟨fun name hname => ?_, fun name hname => ?_, fun name r hr => ?_, fun r hr => ?_,
    fun name r hr u hu bytes => ?_, hafter.owner⟩
  · cases hx : (c.given s).lookup name with
    | none =>
      obtain ⟨r, hr⟩ := (c.mem_outputNames_iff s name).1 hname
      have hne := List.lookup_eq_none_iff.1 hx (name, r) hr
      simp at hne
    | some r =>
      obtain ⟨hnew, hlive, hn, hfinished⟩ := htakes.new (name, r) (hlookup name r hx)
      refine ⟨r, hlookup name r hx, ?_, hnew, hlive, hn, hfinished⟩
      rw [htakes.owner, hx, Option.some_or]
  · cases hx : (c.given s).lookup name with
    | none => rw [htakes.owner, hx, Option.none_or]
    | some r => exact absurd ((c.mem_outputNames_iff s name).2 ⟨r, hlookup name r hx⟩) hname
  · refine ⟨hbefore.live name r hr, ?_⟩
    rw [htakes.owner, hr]
    cases (c.given s).lookup name with
    | none => exact ⟨r, rfl⟩
    | some r' => exact ⟨r', rfl⟩
  · obtain ⟨hlive, hone⟩ := htakes.continues.artifact r hr
    refine ⟨hlive, hone.name, hone.kind, hone.loaded, fun name hgiven => ?_⟩
    exact (hone.finished (hbefore.given (name, r) hgiven).2.2).2
  · obtain ⟨-, hname, hfinished⟩ := hafter.given_of_continues hu (name, r) hr
    have hrefused := Store.writeArtifact_of_finished hfinished bytes
    rw [hname] at hrefused
    exact hrefused

end Loader

namespace Compiler

/-- A toolchain that asks for `B`, writes a byte to it, and panics. -/
def stopping : Toolchain where
  name := "stopping"
  compile _ _ := do
    let sink ← Interaction.outputFor .classOutput "B" .compiled none
    Interaction.write sink [120]
    Interaction.panic none

/-- A compiler with that toolchain over an empty store. -/
def stopper : Compiler × Store :=
  Compiler.new stopping Host.empty .none Directories.none.toStandardFiles (.image 0) Store.empty

/-- Its first build, which fails. -/
def firstStop : BuildResult := stopper.1.build stopper.2

/-- The toolchain asks for `B` alone, in every build. -/
theorem outputNames_stopper (s : Store) : stopper.1.outputNames s = ["B"] := by
  have hend : ∀ (m : FileManager) (b : BuildState) (a : Except Error Unit),
      ((Interaction.ofExcept a).bind fun _ => .panic none).outputNames (α := Bool) m b = [] := by
    intro m b a
    cases a <;> rfl
  exact congrArg (List.cons "B") (hend _ _ _)

/-- Nothing is materialized after a panic. -/
theorem store_firstStop : firstStop.store = stopper.1.settled stopper.2 := by
  have hpanic : stopper.1.ending stopper.2 = .panicked none := rfl
  rw [firstStop, build, buildIn_eq, hpanic]
  rfl

/-- The store when `B` is resolved after that. -/
def resolvedStop : Store := ((stopper.1.loader.resolve "B").attempt firstStop.store).2

/-- **The second build of that compiler** panics too, and `B` belongs to its artifact.  The first
one keeps what was made of it, and takes no bytes any more. -/
theorem owners_of_build_stopper :
    let t := (stopper.1.build resolvedStop).store
    (stopper.1.loader.artifact? "B" resolvedStop = some ⟨0⟩ ∧
        (resolvedStop.artifacts.get ⟨0⟩).loaded = some ⟨0⟩) ∧
      (∃ r, stopper.1.loader.artifact? "B" t = some r ∧ r ≠ ⟨0⟩ ∧
        (t.artifacts.get r).isFinalized = true) ∧
      (t.artifacts.get ⟨0⟩).loaded = some ⟨0⟩ ∧
      ((Sink.artifact ⟨0⟩).write [121]).attempt t = (.error (.artifactFinalized "B"), t) := by
  have howned : stopper.1.loader.OwnsLive stopper.2 := by
    intro name r hr
    cases hr
  have hgiven : stopper.1.given stopper.2 = [("B", ⟨0⟩)] := rfl
  have hfirst : stopper.1.loader.Succession stopper.2 [.build [("B", ⟨0⟩)]] firstStop.store :=
    hgiven ▸ .build .start stopper.1 rfl .increasing
  have hparent : stopper.1.loader.parent.Steady := Host.keeps_empty Store.Steady.bearsLoading
  have hresolved := hfirst.steady (Loader.steady_resolve hparent "B" firstStop.store)
  obtain ⟨hasked, -, -, hkept, hrefused, -⟩ :=
    Loader.owners_of_build hparent howned hresolved stopper.1 rfl .increasing
  obtain ⟨r, -, howner, hnew, -, -, hfinished⟩ :=
    hasked "B" (by rw [outputNames_stopper]; exact List.mem_singleton_self _)
  have hlive : resolvedStop.artifacts.Live ⟨0⟩ := by
    rw [Arena.Live, resolvedStop, store_firstStop]
    decide +kernel
  have hloaded : (resolvedStop.artifacts.get ⟨0⟩).loaded = some ⟨0⟩ := by
    rw [resolvedStop, store_firstStop]
    rfl
  refine ⟨⟨?_, hloaded⟩, ⟨r, howner, ?_, hfinished⟩, (hkept ⟨0⟩ hlive).2.2.2.1 ⟨0⟩ hloaded,
    hrefused "B" ⟨0⟩ ?_ _ (.refl _) [121]⟩
  · rw [resolvedStop, store_firstStop]
    rfl
  · rintro rfl
    exact hnew hlive
  · simp [Takeover.given]

end Compiler
end LiveBuild
