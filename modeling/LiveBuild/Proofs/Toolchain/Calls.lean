/-
# The calls that an interaction makes

Of all requests, three are calls that change what the file manager of the build keeps in
memory: to ask for an output, to write a sink, and to take the queue (`Request.call?`).  The
others leave it alone, if the parent of the loader does (`BuildState.sparesOutputs_answer`).

So what calls leave true of a file manager is left true by every toolchain:

* what was given for a name has that name (`FileManager.Named.run`), and is given for it ever
  after (`extends_run`);
* what the toolchain took and what is still queued are the sources that it asked for, each
  once, in order (`FileManager.Delivered.run`), and they are new units (`FileManager.Added.run`).
-/

import LiveBuild.Proofs.FileManager.Delivery
import LiveBuild.Proofs.Host.Discreet
import LiveBuild.Proofs.Toolchain.Transcript

namespace LiveBuild

/-- The call that a request makes of the file manager, if it makes one. -/
def Request.call? : Request → Option FileManager.Call
  | .outputFor location name kind sibling => some (.outputFor location name kind sibling)
  | .write sink bytes => some (.write sink bytes)
  | .takeGenerated => some .takeGenerated
  | .list .. | .binaryName .. | .same .. | .find .. | .loaded _ | .resources .. | .read _ |
    .unit _ | .report _ | .execute .. | .note .. => none

/-- The names of the sources that a request asks for. -/
def Request.sourceNames (r : Request) : List String := (r.call?.map FileManager.Call.sourceNames).getD []

/-- The units that a request is handed out. -/
def Request.handedOut (m : FileManager) (s : Store) (r : Request) : List (Ref SourceUnit) :=
  (r.call?.map (FileManager.Call.handedOut m s)).getD []

namespace BuildState

variable {m : FileManager} {b : BuildState} {r : Request}

/-- **A request that is a call** does to the store what the call does. -/
theorem store_answer_of_call? {c : FileManager.Call} (h : r.call? = some c) :
    (b.answer m r).2.store = c.perform m b.store := by
  cases r <;> cases h <;> rfl

/-- To run a program asks for no output. -/
theorem sparesOutputs_execute (program : Path) (arguments : List String) (stdin : Bytes)
    (s : Store) : s.SparesOutputs (s.execute program arguments stdin).2 := by
  obtain ⟨processes, hx⟩ := s.store_execute program arguments stdin
  rw [hx]
  exact ⟨.of_eq rfl rfl, rfl⟩

/-- **Any other request** leaves what the file manager keeps alone. -/
theorem sparesOutputs_answer (hparent : m.loader.parent.Discreet) (h : r.call? = none) :
    b.store.SparesOutputs (b.answer m r).2.store := by
  cases r with
  | outputFor location name kind sibling => cases h
  | write sink bytes => cases h
  | takeGenerated => cases h
  | find location name => exact Host.keeps_loader Store.sparesOutputs_materialize hparent name b.store
  | execute program arguments stdin => exact sparesOutputs_execute program arguments stdin b.store
  | note journal event => exact ⟨.of_eq rfl rfl, rfl⟩
  | list | binaryName | same | loaded | resources | read | unit | report => exact .refl b.store

/-- **No request gives an object another identity.** -/
theorem keepsIdentities_answer (hparent : m.loader.parent.Discreet) (b : BuildState) (r : Request) :
    b.store.KeepsIdentities (b.answer m r).2.store := by
  cases h : r.call? with
  | none => exact (sparesOutputs_answer hparent h).identities
  | some c =>
    rw [store_answer_of_call? h]
    exact m.keepsIdentities_perform b.store c

/-- **No request forgets what was asked for.** -/
theorem extends_answer (hparent : m.loader.parent.Discreet) (b : BuildState) (r : Request) :
    (m.asked b.store).Extends (m.asked (b.answer m r).2.store) := by
  cases h : r.call? with
  | none =>
    rw [FileManager.asked, FileManager.asked, (sparesOutputs_answer hparent h).outputs]
    exact .refl _
  | some c =>
    rw [store_answer_of_call? h]
    exact m.extends_perform b.store c

end BuildState

namespace FileManager

variable {m : FileManager} {b : BuildState} {s t : Store} {names : List String}
  {handed : List (Ref SourceUnit)}

/-- Where outputs are spared, what was asked for is as it was. -/
theorem asked_of_sparesOutputs (h : s.SparesOutputs t) : m.asked t = m.asked s := by
  rw [asked, asked, h.outputs]

/-- Whatever a toolchain asks for, everything stays under its own name. -/
theorem Named.answer (hparent : m.loader.parent.Discreet) (h : m.Named b.store) (r : Request) :
    m.Named (b.answer m r).2.store := by
  cases hc : r.call? with
  | none =>
    have hspares := b.sparesOutputs_answer hparent hc
    have hasked := asked_of_sparesOutputs (m := m) hspares
    exact h.of_keepsIdentities hspares.identities (congrArg Outputs.sources hasked)
      (congrArg Outputs.artifacts hasked)
  | some c =>
    rw [BuildState.store_answer_of_call? hc]
    exact h.perform c

/-- **Every request keeps deliveries in step.** -/
theorem Delivered.answer (hparent : m.loader.parent.Discreet) (h : m.Delivered names handed b.store)
    (r : Request) :
    m.Delivered (names ++ r.sourceNames) (handed ++ r.handedOut m b.store) (b.answer m r).2.store := by
  cases hc : r.call? with
  | none =>
    have hspares := b.sparesOutputs_answer hparent hc
    have hasked := asked_of_sparesOutputs (m := m) hspares
    rw [Request.sourceNames, Request.handedOut, hc, Option.map_none, Option.map_none,
      Option.getD_none, Option.getD_none, List.append_nil, List.append_nil]
    exact h.of_keepsIdentities hspares.identities (congrArg Outputs.sources hasked)
      (congrArg Outputs.artifacts hasked) (congrArg Outputs.queue hasked)
  | some c =>
    rw [Request.sourceNames, Request.handedOut, hc, BuildState.store_answer_of_call? hc]
    exact h.perform c

/-- The sources asked for are none of the units that there were in the beginning. -/
structure Added (m : FileManager) (origin s : Store) : Prop where
  keeps : origin.KeepsIdentities s
  source : ∀ name u, (m.asked s).sources.find? name = some u → ¬ origin.units.Live u

namespace Added

variable {origin : Store}

/-- A new manager was asked for no source yet. -/
theorem new (standard : StandardFiles) (loader : Loader) (finder : Finder) (s : Store) :
    (FileManager.new standard loader finder s).1.Added s
      (FileManager.new standard loader finder s).2 := by
  refine ⟨.of_eq rfl rfl, fun name u hu => ?_⟩
  rw [asked_new] at hu
  cases hu

/-- The sources asked for are none of the old units as long as no other is asked for. -/
theorem of_sources (h : m.Added origin s) (hst : s.KeepsIdentities t)
    (hs : (m.asked t).sources = (m.asked s).sources) : m.Added origin t :=
  ⟨h.keeps.trans hst, hs ▸ h.source⟩

/-- A source that is asked for is none of the old units. -/
theorem newSource (h : m.Added origin s) (name : String) : m.Added origin (m.newSource name s) := by
  refine ⟨h.keeps.trans (m.keepsIdentities_newSource name s), fun n u hu => ?_⟩
  rw [asked_newSource, Table.find?_insert] at hu
  split at hu
  · obtain rfl := Option.some.inj hu
    exact fun hlive => Arena.alloc_ne_of_live _ (h.keeps.unit _ hlive).1 rfl
  · exact h.source n u hu

/-- Whatever a manager is called for, the sources asked for are none of the old units. -/
theorem perform (h : m.Added origin s) (c : Call) : m.Added origin (c.perform m s) := by
  have hkeeps := m.keepsIdentities_perform s c
  rcases m.perform_cases s c with ⟨name, -, hx⟩ | ⟨name, kind, -, -, hx⟩ | ⟨hs, -⟩
  · rw [hx]
    exact h.newSource name
  · rw [hx] at hkeeps ⊢
    exact h.of_sources hkeeps (by rw [asked_newOutput])
  · exact h.of_sources hkeeps hs

/-- Whatever a toolchain asks for, the sources asked for are none of the old units. -/
theorem answer (hparent : m.loader.parent.Discreet) (h : m.Added origin b.store) (r : Request) :
    m.Added origin (b.answer m r).2.store := by
  cases hc : r.call? with
  | none =>
    have hspares := b.sparesOutputs_answer hparent hc
    exact h.of_sources hspares.identities (congrArg Outputs.sources (asked_of_sparesOutputs hspares))
  | some c =>
    rw [BuildState.store_answer_of_call? hc]
    exact h.perform c

end Added
end FileManager

namespace Interaction

variable {α : Type} {m : FileManager}

/-- The names of the sources that an interaction asks for when it runs. -/
def sourceNames (m : FileManager) (x : Interaction α) (b : BuildState) : List String :=
  (x.transcript m b).flatMap fun t => t.2.sourceNames

/-- The units that an interaction takes when it runs. -/
def handedOut (m : FileManager) (x : Interaction α) (b : BuildState) : List (Ref SourceUnit) :=
  (x.transcript m b).flatMap fun t => t.2.handedOut m t.1.store

/-! ### What runs keep -/

/-- **A run loses nothing that was asked for.** -/
theorem extends_run (hparent : m.loader.parent.Discreet) (x : Interaction α) (b : BuildState) :
    (m.asked b.store).Extends (m.asked (x.run m b).2.store) :=
  run_induction (P := fun b' => (m.asked b.store).Extends (m.asked b'.store))
    (fun b' r h => h.trans (b'.extends_answer hparent r)) x (.refl _)

end Interaction

namespace FileManager

variable {α : Type} {m : FileManager} {b : BuildState} {names : List String}
  {handed : List (Ref SourceUnit)} {origin : Store}

/-- Everything stays under its own name through a whole interaction. -/
theorem Named.run (hparent : m.loader.parent.Discreet) (h : m.Named b.store) (x : Interaction α) :
    m.Named (x.run m b).2.store :=
  Interaction.run_induction (P := fun b => m.Named b.store) (fun _ r h => h.answer hparent r) x h

/-- **A whole interaction is given none of the old units as a source.** -/
theorem Added.run (hparent : m.loader.parent.Discreet) (h : m.Added origin b.store)
    (x : Interaction α) : m.Added origin (x.run m b).2.store :=
  Interaction.run_induction (P := fun b => m.Added origin b.store)
    (fun _ r h => h.answer hparent r) x h

/-- **Every run keeps deliveries in step:** its requests ask for some sources, and it takes
some units. -/
theorem Delivered.run (hparent : m.loader.parent.Discreet) (h : m.Delivered names handed b.store)
    (x : Interaction α) :
    m.Delivered (names ++ x.sourceNames m b) (handed ++ x.handedOut m b) (x.run m b).2.store := by
  induction x generalizing b names handed with
  | done _ | fail _ | panic _ =>
    have hnothing : m.Delivered (names ++ []) (handed ++ []) b.store := by
      rwa [List.append_nil, List.append_nil]
    exact hnothing
  | ask r next ih =>
    have hrest := ih (b.answer m r).1 (h.answer hparent r)
    rw [List.append_assoc, List.append_assoc] at hrest
    exact hrest

end FileManager
end LiveBuild
