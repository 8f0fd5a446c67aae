/-
# What a toolchain is given

For every output other than a source that a toolchain asks for it is given an artifact
(`map_fst_given`), the same one for the same name.  The artifact is new in this build, and
from that moment on the loader owns it under the name; nothing else that a toolchain can ask
for changes who owns a name (`FileManager.answer_cases`).

So while a build is under way, a name belongs to what is found for it among the outputs asked
for, and to whom it belonged in the beginning if nothing is (`Underway.run`); and what is found
for a name at the end of a run is what the run was given for it (`find?_run`).
-/

import LiveBuild.Proofs.FileManager.Call
import LiveBuild.Proofs.Host.Steady
import LiveBuild.Proofs.Toolchain.Transcript

namespace LiveBuild

/-- The names of the outputs other than sources that a request asks for. -/
def Request.outputNames : Request → List String
  | .outputFor _ name kind _ => if kind = .source then [] else [name]
  | _ => []

/-- The artifacts that a request is given, each with the name that it is given for. -/
def Request.given (m : FileManager) (s : Store) : Request → List (String × Ref Artifact)
  | .outputFor location name kind sibling =>
    match (m.outputFor location name kind sibling s).1 with
    | .artifact r => [(name, r)]
    | .source _ => []
  | _ => []

namespace Request

/-- **Whatever output a request asks for, it is given an artifact,** unless it is a source. -/
theorem map_fst_given (m : FileManager) (s : Store) (r : Request) :
    (r.given m s).map Prod.fst = r.outputNames := by
  cases r with
  | outputFor location name kind sibling =>
    have hsource := FileManager.exists_source_iff
      (m.sink?_outputFor location name kind sibling s)
    rw [given, outputNames]
    cases hsink : (m.outputFor location name kind sibling s).1 with
    | artifact a =>
      rw [if_neg fun hk => ?_]
      · rfl
      · obtain ⟨u, hu⟩ := hsource.2 hk
        rw [hsink] at hu
        cases hu
    | source u =>
      rw [if_pos (hsource.1 ⟨u, hsink⟩)]
      rfl
  | write | takeGenerated | list | binaryName | same | find | loaded | resources | read | unit |
    report | execute | note => rfl

end Request

namespace Interaction

variable {α : Type}

/-- The names of the outputs other than sources that an interaction asks for when it runs. -/
def outputNames (m : FileManager) (x : Interaction α) (b : BuildState) : List String :=
  (x.transcript m b).flatMap fun t => t.2.outputNames

/-- The artifacts that an interaction is given when it runs, each with the name that it is
given for. -/
def given (m : FileManager) (x : Interaction α) (b : BuildState) : List (String × Ref Artifact) :=
  (x.transcript m b).flatMap fun t => t.2.given m t.1.store

/-- The names for which something is given are the names asked for. -/
theorem map_fst_given (m : FileManager) (x : Interaction α) (b : BuildState) :
    (x.given m b).map Prod.fst = x.outputNames m b := by
  rw [given, outputNames, List.map_flatMap]
  simp only [Request.map_fst_given]

end Interaction

namespace FileManager

variable {m : FileManager} {origin s t : Store} {b : BuildState} {name : String} {kind : Kind}

/-- Every artifact goes on when another one is made and registered. -/
theorem continues_newOutput (m : FileManager) (name : String) (kind : Kind) (s : Store) :
    s.Continues (m.newOutput name kind s) :=
  .of_newArtifact (.new name kind) rfl rfl

/-- The artifacts asked for and the owners of names are as they were, and every artifact goes
on. -/
structure Rests (m : FileManager) (s t : Store) : Prop where
  continues : s.Continues t
  namespaces : t.namespaces = s.namespaces
  artifacts : (m.asked t).artifacts = (m.asked s).artifacts

theorem Rests.trans {u : Store} (h : m.Rests s t) (h' : m.Rests t u) : m.Rests s u :=
  ⟨h.continues.trans h'.continues, h'.namespaces.trans h.namespaces, h'.artifacts.trans h.artifacts⟩

/-- What registers nothing leaves the owners and the artifacts asked for. -/
theorem Rests.of_steady (m : FileManager) (h : s.Steady t) : m.Rests s t :=
  ⟨h.continues, h.namespaces, by rw [asked, asked, h.outputs]⟩

/-- To take the queue leaves the owners and the artifacts asked for. -/
theorem Rests.takeGenerated (m : FileManager) (s : Store) : m.Rests s (m.takeGenerated s).2 :=
  ⟨.of_eq rfl rfl, rfl, by rw [asked_takeGenerated]⟩

/-- An output that is given again is found among those asked for. -/
theorem find?_of_sink? {a : Ref Artifact} (h : m.sink? name kind s = some (.artifact a)) :
    (m.asked s).artifacts.find? name = some a := by
  unfold sink? at h
  split at h
  · obtain ⟨u, -, hu⟩ := Option.map_eq_some_iff.1 h
    cases hu
  · obtain ⟨a', ha, he⟩ := Option.map_eq_some_iff.1 h
    cases he
    exact ha

/-- **Two things can happen when a request is answered:** it is given a new output, or nothing
happens to the artifacts asked for and to the owners, and what it is given was given for its
name before. -/
theorem answer_cases (hparent : m.loader.parent.Steady) (b : BuildState) (r : Request) :
    (∃ name kind, (m.asked b.store).artifacts.find? name = none ∧
        (b.answer m r).2.store = m.newOutput name kind b.store ∧
        r.given m b.store = [(name, (b.store.artifacts.alloc (.new name kind)).1)]) ∨
      m.Rests b.store (b.answer m r).2.store ∧
        ∀ e ∈ r.given m b.store, (m.asked b.store).artifacts.find? e.1 = some e.2 := by
  have hnothing : ∀ e ∈ ([] : List (String × Ref Artifact)),
      (m.asked b.store).artifacts.find? e.1 = some e.2 := fun _ he => absurd he List.not_mem_nil
  cases r with
  | outputFor location name kind sibling =>
    show (∃ name' kind', _ ∧ (m.outputFor location name kind sibling b.store).2 = _ ∧ _) ∨
      m.Rests b.store (m.outputFor location name kind sibling b.store).2 ∧ _
    rw [Request.given]
    rcases m.outputFor_cases location name kind sibling b.store with
      ⟨sink, hsink, hx⟩ | ⟨-, -, hx⟩ | ⟨hk, hnew, hx⟩ <;> rw [hx]
    · refine .inr ⟨⟨.refl _, rfl, rfl⟩, ?_⟩
      cases sink with
      | source u => exact hnothing
      | artifact a =>
        intro e he
        obtain rfl := List.mem_singleton.1 he
        exact find?_of_sink? hsink
    · exact .inr ⟨⟨.of_eq rfl rfl, rfl, by rw [asked_newSource]⟩, hnothing⟩
    · rw [sink?, if_neg hk, Option.map_eq_none_iff] at hnew
      exact .inl ⟨name, kind, hnew, rfl, rfl⟩
  | write sink bytes => exact .inr ⟨.of_steady m (Store.steady_write sink bytes b.store), hnothing⟩
  | takeGenerated => exact .inr ⟨.takeGenerated m b.store, hnothing⟩
  | find location name =>
    exact .inr ⟨.of_steady m (Host.keeps_loader Store.steady_materialize hparent name b.store), hnothing⟩
  | execute program arguments stdin =>
    exact .inr ⟨.of_steady m (Store.steady_execute program arguments stdin b.store), hnothing⟩
  | note | list | binaryName | same | loaded | resources | read | unit | report =>
    exact .inr ⟨⟨.of_eq rfl rfl, rfl, rfl⟩, hnothing⟩

/-! ### A build under way -/

/-- A build under way: the artifacts asked for are new and own their names, and every other
name belongs to whom it belonged in the beginning. -/
structure Underway (m : FileManager) (origin s : Store) : Prop where
  continues : origin.Continues s
  owner : ∀ name, m.loader.artifact? name s =
    ((m.asked s).artifacts.find? name).or (m.loader.artifact? name origin)
  new : ∀ name r, (m.asked s).artifacts.find? name = some r →
    ¬ origin.artifacts.Live r ∧ s.artifacts.Live r ∧ (s.artifacts.get r).name = name

namespace Underway

/-- In the beginning nothing is asked for. -/
theorem start (standard : StandardFiles) (loader : Loader) (finder : Finder) (s : Store) :
    (FileManager.new standard loader finder s).1.Underway s
      (FileManager.new standard loader finder s).2 := by
  refine ⟨.of_eq rfl rfl, fun name => ?_, fun name r hr => ?_⟩
  · rw [asked_new]
    rfl
  · rw [asked_new] at hr
    cases hr

/-- A build stays under way where nothing is asked for or registered. -/
theorem rests (h : m.Underway origin s) (hst : m.Rests s t) : m.Underway origin t where
  continues := h.continues.trans hst.continues
  owner name := by
    have howner := h.owner name
    rw [hst.artifacts, ← howner, Loader.artifact?, Loader.artifact?, Loader.table, Loader.table,
      hst.namespaces]
  new name r hr := by
    rw [hst.artifacts] at hr
    obtain ⟨hnew, hlive, hname⟩ := h.new name r hr
    obtain ⟨hlive', hone⟩ := hst.continues.artifact r hlive
    exact ⟨hnew, hlive', hone.name.trans hname⟩

/-- **A new output** is an artifact that there was not in the beginning. -/
theorem newOutput (h : m.Underway origin s) (name : String) (kind : Kind) :
    m.Underway origin (m.newOutput name kind s) where
  continues := h.continues.trans (m.continues_newOutput name kind s)
  owner n := by
    rw [artifact?_newOutput, find?_artifacts_newOutput]
    split
    · rfl
    · exact h.owner n
  new n r hr := by
    rw [find?_artifacts_newOutput] at hr
    split at hr
    · rename_i he
      obtain rfl := Option.some.inj hr
      refine ⟨fun hlive => ?_, Arena.live_alloc_self _ _, ?_⟩
      · exact Arena.alloc_ne_of_live _ (h.continues.live hlive) rfl
      · exact (congrArg Artifact.name (Arena.get_alloc_self _ _)).trans he
    · obtain ⟨hnew, hlive, hname⟩ := h.new n r hr
      obtain ⟨hlive', hone⟩ := (m.continues_newOutput name kind s).artifact r hlive
      exact ⟨hnew, hlive', hone.name.trans hname⟩

/-- **Every request keeps a build under way.** -/
theorem answer (hparent : m.loader.parent.Steady) (h : m.Underway origin b.store) (r : Request) :
    m.Underway origin (b.answer m r).2.store := by
  rcases m.answer_cases hparent b r with ⟨name, kind, -, hx, -⟩ | ⟨hrests, -⟩
  · rw [hx]
    exact h.newOutput name kind
  · exact h.rests hrests

/-- **A build stays under way through everything that its toolchain does.** -/
theorem run {α : Type} (hparent : m.loader.parent.Steady) (h : m.Underway origin b.store)
    (x : Interaction α) : m.Underway origin (x.run m b).2.store :=
  Interaction.run_induction (P := fun b => m.Underway origin b.store)
    (fun _ r h => h.answer hparent r) x h

end Underway

/-! ### What was given for a name -/

/-- **What is found for a name** was found for it before, or else the request is given it. -/
theorem find?_answer (hparent : m.loader.parent.Steady) (b : BuildState) (r : Request) (n : String) :
    (m.asked (b.answer m r).2.store).artifacts.find? n =
      ((m.asked b.store).artifacts.find? n).or ((r.given m b.store).lookup n) := by
  rcases m.answer_cases hparent b r with ⟨name, kind, hnew, hx, hgiven⟩ | ⟨hrests, hgiven⟩
  · rw [hx, hgiven, find?_artifacts_newOutput, List.lookup_cons]
    by_cases he : name = n
    · rw [if_pos he, ← he, hnew, beq_self_eq_true]
      rfl
    · rw [if_neg he, beq_false_of_ne (Ne.symm he)]
      exact Option.or_none.symm
  · rw [hrests.artifacts]
    cases hlookup : (r.given m b.store).lookup n with
    | none => rw [Option.or_none]
    | some a =>
      obtain ⟨before, after, he, -⟩ := List.lookup_eq_some_iff.1 hlookup
      rw [hgiven (n, a) (by rw [he]; simp)]
      rfl

/-- **What a request is given is what is found for its name** from then on. -/
theorem find?_of_mem_given (hparent : m.loader.parent.Steady) {r : Request}
    {e : String × Ref Artifact} (he : e ∈ r.given m b.store) :
    (m.asked (b.answer m r).2.store).artifacts.find? e.1 = some e.2 := by
  rcases m.answer_cases hparent b r with ⟨name, kind, -, hx, hgiven⟩ | ⟨hrests, hgiven⟩
  · rw [hgiven, List.mem_singleton] at he
    rw [hx, he, find?_artifacts_newOutput, if_pos rfl]
  · rw [hrests.artifacts, hgiven e he]

variable {α : Type}

/-- **What is found for a name at the end of a run** was found for it before, or else the run is
given it. -/
theorem find?_run (hparent : m.loader.parent.Steady) (x : Interaction α) (b : BuildState)
    (n : String) :
    (m.asked (x.run m b).2.store).artifacts.find? n =
      ((m.asked b.store).artifacts.find? n).or ((x.given m b).lookup n) := by
  induction x generalizing b with
  | done _ | fail _ | panic _ => exact Option.or_none.symm
  | ask r next ih =>
    have hrest := ih (b.answer m r).1 (b.answer m r).2
    rw [find?_answer hparent, Option.or_assoc, ← List.lookup_append] at hrest
    exact hrest

/-- **What a run is given for a name is what is found for it** at the end. -/
theorem find?_run_of_mem_given (hparent : m.loader.parent.Steady) {x : Interaction α}
    {e : String × Ref Artifact} (he : e ∈ x.given m b) :
    (m.asked (x.run m b).2.store).artifacts.find? e.1 = some e.2 := by
  induction x generalizing b with
  | done _ | fail _ | panic _ => cases he
  | ask r next ih =>
    rcases List.mem_append.1 he with he | he
    · have hlater := find?_run hparent (next (b.answer m r).1) (b.answer m r).2 e.1
      rw [find?_of_mem_given hparent he] at hlater
      exact hlater
    · exact ih _ he

end FileManager
end LiveBuild
