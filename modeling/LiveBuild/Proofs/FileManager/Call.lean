/-
# Calls of a file manager

What a file manager keeps in memory is changed by four calls: an output is asked for, a sink
is written, the queue is taken, and everything is finished.

| call | tables | queue | objects |
| --- | --- | --- | --- |
| a new source | its name is added | the unit is added | a pending unit |
| another new output | its name is added | | an artifact of the kind asked for |
| an output asked for before | | | |
| a write | | | contents, unless it is refused |
| the queue is taken | | is empty | |
| everything is finished | | | artifacts are read-only |

So a call loses nothing that was asked for (`extends_perform`): what was given for a name is
given for it ever after (`sink?_of_extends`), and it has that name (`Named.perform`).
-/

import LiveBuild.FileManager
import LiveBuild.Proofs.Loader.Resolve
import LiveBuild.Proofs.Store.Identity

namespace LiveBuild

/-- Everything asked for is still there, and there may be more. -/
structure Outputs.Extends (o o' : Outputs) : Prop where
  source : ∀ name u, o.sources.find? name = some u → o'.sources.find? name = some u
  artifact : ∀ name a, o.artifacts.find? name = some a → o'.artifacts.find? name = some a

namespace Outputs

variable {o o' o'' : Outputs}

/-- Nothing is forgotten where nothing happens. -/
theorem Extends.refl (o : Outputs) : o.Extends o := ⟨fun _ _ h => h, fun _ _ h => h⟩

/-- What one step does not forget and the next one does not either, both together do not forget. -/
theorem Extends.trans (h : o.Extends o') (h' : o'.Extends o'') : o.Extends o'' :=
  ⟨fun name u hu => h'.source name u (h.source name u hu),
    fun name a ha => h'.artifact name a (h.artifact name a ha)⟩

end Outputs

namespace FileManager

/-- A call that changes what a file manager keeps in memory. -/
inductive Call where
  | outputFor (location : Location) (name : String) (kind : Kind) (sibling : Option FileHandle)
  | write (sink : Sink) (bytes : Bytes)
  | takeGenerated
  | finish

/-- The store that a call leaves behind. -/
def Call.perform (m : FileManager) (s : Store) : Call → Store
  | .outputFor location name kind sibling => (m.outputFor location name kind sibling s).2
  | .write sink bytes => ((sink.write bytes).attempt s).2
  | .takeGenerated => (m.takeGenerated s).2
  | .finish => m.finish s

/-- The store that calls leave behind, one after the other. -/
def perform (m : FileManager) (s : Store) (calls : List Call) : Store :=
  calls.foldl (Call.perform m) s

/-- Calls one after the other are performed one part after the other. -/
theorem perform_append (m : FileManager) (s : Store) (before after : List Call) :
    m.perform s (before ++ after) = m.perform (m.perform s before) after :=
  List.foldl_append

/-- The sink that was given out for a name and a kind, if there was one. -/
def sink? (m : FileManager) (name : String) (kind : Kind) (s : Store) : Option Sink :=
  if kind = .source then ((m.asked s).sources.find? name).map .source
  else ((m.asked s).artifacts.find? name).map .artifact

/-- The store in which a source is asked for under a new name. -/
def newSource (m : FileManager) (name : String) (s : Store) : Store :=
  m.modifyAsked (fun o =>
    { o with
      sources := o.sources.insert name (s.units.alloc (.pending name)).1
      queue := o.queue ++ [(s.units.alloc (.pending name)).1] }) (s.newUnit (.pending name)).2

/-- The store in which an artifact is asked for under a new name. -/
def newOutput (m : FileManager) (name : String) (kind : Kind) (s : Store) : Store :=
  m.modifyAsked (fun o =>
      { o with artifacts := o.artifacts.insert name (s.artifacts.alloc (.new name kind)).1 })
    (m.loader.register (s.artifacts.alloc (.new name kind)).1 (s.newArtifact (.new name kind)).2).2

variable {m : FileManager} {s t : Store} {name : String} {kind : Kind} {sink : Sink}

/-! ### What a request does -/

/-- **What was asked for before is given again,** and nothing happens. -/
theorem outputFor_of_sink? (h : m.sink? name kind s = some sink) (location : Location)
    (sibling : Option FileHandle) : m.outputFor location name kind sibling s = (sink, s) := by
  unfold sink? at h
  unfold outputFor
  split at h
  · rename_i hk
    obtain ⟨u, hu, rfl⟩ := Option.map_eq_some_iff.1 h
    rw [if_pos hk, sourceFor, hu]
  · rename_i hk
    obtain ⟨a, ha, rfl⟩ := Option.map_eq_some_iff.1 h
    rw [if_neg hk, artifactFor, ha]

/-- A source that was not asked for before is a new unit, still to be written. -/
theorem outputFor_source_of_new (h : m.sink? name .source s = none) (location : Location)
    (sibling : Option FileHandle) :
    m.outputFor location name .source sibling s =
      (.source (s.units.alloc (.pending name)).1, m.newSource name s) := by
  rw [sink?, if_pos rfl, Option.map_eq_none_iff] at h
  rw [outputFor, if_pos rfl, sourceFor, h]
  rfl

/-- An artifact whose name was not asked for before is a new one, of the kind asked for. -/
theorem outputFor_artifact_of_new (hk : kind ≠ .source) (h : m.sink? name kind s = none)
    (location : Location) (sibling : Option FileHandle) :
    m.outputFor location name kind sibling s =
      (.artifact (s.artifacts.alloc (.new name kind)).1, m.newOutput name kind s) := by
  rw [sink?, if_neg hk, Option.map_eq_none_iff] at h
  rw [outputFor, if_neg hk, artifactFor, h]
  rfl

/-- **Three things can happen when an output is asked for.** -/
theorem outputFor_cases (m : FileManager) (location : Location) (name : String) (kind : Kind)
    (sibling : Option FileHandle) (s : Store) :
    (∃ sink, m.sink? name kind s = some sink ∧
        m.outputFor location name kind sibling s = (sink, s)) ∨
      (kind = .source ∧ m.sink? name .source s = none ∧
        m.outputFor location name kind sibling s =
          (.source (s.units.alloc (.pending name)).1, m.newSource name s)) ∨
      (kind ≠ .source ∧ m.sink? name kind s = none ∧
        m.outputFor location name kind sibling s =
          (.artifact (s.artifacts.alloc (.new name kind)).1, m.newOutput name kind s)) := by
  cases h : m.sink? name kind s with
  | some sink => exact .inl ⟨sink, rfl, outputFor_of_sink? h location sibling⟩
  | none =>
    by_cases hk : kind = .source
    · subst hk
      exact .inr (.inl ⟨rfl, h, outputFor_source_of_new h location sibling⟩)
    · exact .inr (.inr ⟨hk, rfl, outputFor_artifact_of_new hk h location sibling⟩)

/-! ### What was asked for -/

/-- In the beginning nothing was asked for. -/
theorem asked_new (standard : StandardFiles) (loader : Loader) (finder : Finder) (s : Store) :
    (FileManager.new standard loader finder s).1.asked
      (FileManager.new standard loader finder s).2 = .none :=
  Arena.get_alloc_self _ _

/-- What was asked for changes as it is told to. -/
@[simp] theorem asked_modifyAsked (m : FileManager) (f : Outputs → Outputs) (s : Store) :
    m.asked (m.modifyAsked f s) = f (m.asked s) :=
  Arena.get_modify_self _ _ _

/-- A new source is written down under its name and waits in the queue. -/
theorem asked_newSource (m : FileManager) (name : String) (s : Store) :
    m.asked (m.newSource name s) =
      { m.asked s with
        sources := (m.asked s).sources.insert name (s.units.alloc (.pending name)).1
        queue := (m.asked s).queue ++ [(s.units.alloc (.pending name)).1] } :=
  asked_modifyAsked ..

/-- A new artifact is written down under its name. -/
theorem asked_newOutput (m : FileManager) (name : String) (kind : Kind) (s : Store) :
    m.asked (m.newOutput name kind s) =
      { m.asked s with
        artifacts := (m.asked s).artifacts.insert name (s.artifacts.alloc (.new name kind)).1 } :=
  asked_modifyAsked ..

/-- After an artifact was made it is found under its name, and every other name is where it was. -/
theorem find?_artifacts_newOutput (m : FileManager) (name : String) (kind : Kind) (s : Store)
    (n : String) :
    (m.asked (m.newOutput name kind s)).artifacts.find? n =
      if name = n then some (s.artifacts.alloc (.new name kind)).1
      else (m.asked s).artifacts.find? n := by
  rw [asked_newOutput, Table.find?_insert]

/-- **A new output is owned by its loader,** and every other name stays with its owner. -/
theorem artifact?_newOutput (m : FileManager) (name : String) (kind : Kind) (s : Store)
    (n : String) :
    m.loader.artifact? n (m.newOutput name kind s) =
      if name = n then some (s.artifacts.alloc (.new name kind)).1
      else m.loader.artifact? n s := by
  have hname : ((s.newArtifact (.new name kind)).2.artifacts.get
      (s.artifacts.alloc (.new name kind)).1).name = name :=
    congrArg Artifact.name (Arena.get_alloc_self _ _)
  refine (m.loader.artifact?_register _ (s.newArtifact (.new name kind)).2 n).trans ?_
  rw [hname]
  rfl

/-- Taking the queue empties it and forgets nothing else. -/
theorem asked_takeGenerated (m : FileManager) (s : Store) :
    m.asked (m.takeGenerated s).2 = { m.asked s with queue := [] } :=
  asked_modifyAsked ..

/-- A write asks for nothing. -/
theorem asked_write (m : FileManager) (sink : Sink) (bytes : Bytes) (s : Store) :
    m.asked ((sink.write bytes).attempt s).2 = m.asked s := by
  rcases sink.write_cases bytes s with ⟨e, hx⟩ | ⟨r, a, -, -, hx⟩ | ⟨u, v, -, -, hx⟩ <;> rw [hx] <;> rfl

/-- Finishing asks for nothing. -/
theorem asked_finish (m : FileManager) (s : Store) : m.asked (m.finish s) = m.asked s := by
  rw [finish, Store.finalizeAll_eq]
  rfl

/-- Making a source forgets nothing: its name was not asked for before. -/
theorem extends_newSource (h : m.sink? name .source s = none) :
    (m.asked s).Extends (m.asked (m.newSource name s)) := by
  rw [sink?, if_pos rfl, Option.map_eq_none_iff] at h
  rw [asked_newSource]
  refine ⟨fun n u hu => ?_, fun _ _ ha => ha⟩
  have hne : name ≠ n := by
    rintro rfl
    rw [h] at hu
    cases hu
  rw [Table.find?_insert_of_ne _ _ hne, hu]

/-- Making an artifact forgets nothing: its name was not asked for before. -/
theorem extends_newOutput (hk : kind ≠ .source) (h : m.sink? name kind s = none) :
    (m.asked s).Extends (m.asked (m.newOutput name kind s)) := by
  rw [sink?, if_neg hk, Option.map_eq_none_iff] at h
  rw [asked_newOutput]
  refine ⟨fun _ _ hu => hu, fun n a ha => ?_⟩
  have hne : name ≠ n := by
    rintro rfl
    rw [h] at ha
    cases ha
  rw [Table.find?_insert_of_ne _ _ hne, ha]

/-- **What a call can do to the tables:** it makes a new source, it makes another new output, or
it leaves them as they are. -/
theorem perform_cases (m : FileManager) (s : Store) (c : Call) :
    (∃ name, m.sink? name .source s = none ∧ c.perform m s = m.newSource name s) ∨
      (∃ name kind, kind ≠ .source ∧ m.sink? name kind s = none ∧
        c.perform m s = m.newOutput name kind s) ∨
      (m.asked (c.perform m s)).sources = (m.asked s).sources ∧
        (m.asked (c.perform m s)).artifacts = (m.asked s).artifacts := by
  cases c with
  | outputFor location name kind sibling =>
    rw [Call.perform]
    rcases m.outputFor_cases location name kind sibling s with
      ⟨sink, -, hx⟩ | ⟨-, hnew, hx⟩ | ⟨hk, hnew, hx⟩ <;> rw [hx]
    · exact .inr (.inr ⟨rfl, rfl⟩)
    · exact .inl ⟨name, hnew, rfl⟩
    · exact .inr (.inl ⟨name, kind, hk, hnew, rfl⟩)
  | write sink bytes =>
    rw [Call.perform, asked_write]
    exact .inr (.inr ⟨rfl, rfl⟩)
  | takeGenerated =>
    rw [Call.perform, asked_takeGenerated]
    exact .inr (.inr ⟨rfl, rfl⟩)
  | finish =>
    rw [Call.perform, asked_finish]
    exact .inr (.inr ⟨rfl, rfl⟩)

/-- **A call loses nothing that was asked for.** -/
theorem extends_perform (m : FileManager) (s : Store) (c : Call) :
    (m.asked s).Extends (m.asked (c.perform m s)) := by
  rcases m.perform_cases s c with ⟨name, hnew, hx⟩ | ⟨name, kind, hk, hnew, hx⟩ | ⟨hs, ha⟩
  · rw [hx]
    exact extends_newSource hnew
  · rw [hx]
    exact extends_newOutput hk hnew
  · exact ⟨fun _ _ hu => hs ▸ hu, fun _ _ hf => ha ▸ hf⟩

/-- **No calls forget what was asked for.** -/
theorem extends_performAll (m : FileManager) (s : Store) (calls : List Call) :
    (m.asked s).Extends (m.asked (m.perform s calls)) := by
  induction calls generalizing s with
  | nil => exact .refl _
  | cons c calls ih => exact (m.extends_perform s c).trans (ih (c.perform m s))

/-! ### Sinks -/

/-- **What was given for a name is there as long as the tables grow.** -/
theorem sink?_of_extends (h : m.sink? name kind s = some sink)
    (hext : (m.asked s).Extends (m.asked t)) : m.sink? name kind t = some sink := by
  unfold sink? at h ⊢
  split at h
  · rename_i hk
    obtain ⟨u, hu, rfl⟩ := Option.map_eq_some_iff.1 h
    rw [if_pos hk, hext.source name u hu]
    rfl
  · rename_i hk
    obtain ⟨a, ha, rfl⟩ := Option.map_eq_some_iff.1 h
    rw [if_neg hk, hext.artifact name a ha]
    rfl

/-- A sink is a source unit exactly if a source was asked for. -/
theorem exists_source_iff (h : m.sink? name kind s = some sink) :
    (∃ u, sink = .source u) ↔ kind = .source := by
  unfold sink? at h
  split at h
  · rename_i hk
    obtain ⟨u, -, rfl⟩ := Option.map_eq_some_iff.1 h
    exact iff_of_true ⟨u, rfl⟩ hk
  · rename_i hk
    obtain ⟨a, -, rfl⟩ := Option.map_eq_some_iff.1 h
    refine iff_of_false ?_ hk
    rintro ⟨u, hu⟩
    cases hu

/-- **What is given for a name was given for it then.** -/
theorem sink?_outputFor (m : FileManager) (location : Location) (name : String) (kind : Kind)
    (sibling : Option FileHandle) (s : Store) :
    m.sink? name kind (m.outputFor location name kind sibling s).2 =
      some (m.outputFor location name kind sibling s).1 := by
  rcases m.outputFor_cases location name kind sibling s with
    ⟨sink, hsink, hx⟩ | ⟨hk, -, hx⟩ | ⟨hk, -, hx⟩
  · rw [hx]
    exact hsink
  · rw [hx, sink?, if_pos hk, asked_newSource, Table.find?_insert_self]
    rfl
  · rw [hx, sink?, if_neg hk, asked_newOutput, Table.find?_insert_self]
    rfl

/-! ### Names -/

/-- A new unit is an object beside those that there were. -/
theorem keepsIdentities_newSource (m : FileManager) (name : String) (s : Store) :
    s.KeepsIdentities (m.newSource name s) :=
  .of_newUnit (.pending name) rfl rfl

/-- A new artifact is an object beside those that there were. -/
theorem keepsIdentities_newOutput (m : FileManager) (name : String) (kind : Kind) (s : Store) :
    s.KeepsIdentities (m.newOutput name kind s) :=
  .of_continues rfl (.of_newArtifact (.new name kind) rfl rfl)

/-- **A call keeps the identities of all objects.** -/
theorem keepsIdentities_perform (m : FileManager) (s : Store) (c : Call) :
    s.KeepsIdentities (c.perform m s) := by
  cases c with
  | outputFor location name kind sibling =>
    rw [Call.perform]
    rcases m.outputFor_cases location name kind sibling s with
      ⟨sink, -, hx⟩ | ⟨-, -, hx⟩ | ⟨-, -, hx⟩
    · rw [hx]
      exact .refl s
    · rw [hx]
      exact m.keepsIdentities_newSource name s
    · rw [hx]
      exact m.keepsIdentities_newOutput name kind s
  | write sink bytes => exact .write sink bytes s
  | takeGenerated => exact .of_eq rfl rfl
  | finish => exact .finalizeAll s _

/-- **No calls give an object another identity.** -/
theorem keepsIdentities_performAll (m : FileManager) (s : Store) (calls : List Call) :
    s.KeepsIdentities (m.perform s calls) := by
  induction calls generalizing s with
  | nil => exact .refl s
  | cons c calls ih => exact (m.keepsIdentities_perform s c).trans (ih (c.perform m s))

/-- What was given for a name exists and has that name. -/
structure Named (m : FileManager) (s : Store) : Prop where
  source : ∀ name u, (m.asked s).sources.find? name = some u →
    s.units.Live u ∧ (s.units.get u).name = name
  artifact : ∀ name a, (m.asked s).artifacts.find? name = some a →
    s.artifacts.Live a ∧ (s.artifacts.get a).name = name

namespace Named

/-- A new manager, asked for nothing, has everything under its own name. -/
theorem new (standard : StandardFiles) (loader : Loader) (finder : Finder) (s : Store) :
    (FileManager.new standard loader finder s).1.Named (FileManager.new standard loader finder s).2 := by
  constructor
  · intro name u hu
    rw [asked_new] at hu
    cases hu
  · intro name a ha
    rw [asked_new] at ha
    cases ha

/-- Names stay when nothing is asked for and all objects keep their identities. -/
theorem of_keepsIdentities (h : m.Named s) (hst : s.KeepsIdentities t)
    (hs : (m.asked t).sources = (m.asked s).sources)
    (ha : (m.asked t).artifacts = (m.asked s).artifacts) : m.Named t where
  source name u hu := by
    rw [hs] at hu
    obtain ⟨hlive, hname⟩ := h.source name u hu
    obtain ⟨hlive', hname'⟩ := hst.unit u hlive
    exact ⟨hlive', hname'.trans hname⟩
  artifact name a hf := by
    rw [ha] at hf
    obtain ⟨hlive, hname⟩ := h.artifact name a hf
    obtain ⟨hlive', hname', -⟩ := hst.artifact a hlive
    exact ⟨hlive', hname'.trans hname⟩

/-- A source is written down under the name that the unit has. -/
theorem newSource (h : m.Named s) (name : String) : m.Named (m.newSource name s) where
  source n u hu := by
    rw [asked_newSource, Table.find?_insert] at hu
    split at hu
    · rename_i he
      obtain rfl := Option.some.inj hu
      have hget : (m.newSource name s).units.get (s.units.alloc (.pending name)).1 = .pending name :=
        Arena.get_alloc_self _ _
      rw [hget]
      exact ⟨Arena.live_alloc_self _ _, he⟩
    · obtain ⟨hlive, hname⟩ := h.source n u hu
      obtain ⟨hlive', hname'⟩ := (m.keepsIdentities_newSource name s).unit u hlive
      exact ⟨hlive', hname'.trans hname⟩
  artifact n a ha := by
    rw [asked_newSource] at ha
    exact h.artifact n a ha

/-- An artifact is written down under the name that it has. -/
theorem newOutput (h : m.Named s) (name : String) (kind : Kind) :
    m.Named (m.newOutput name kind s) where
  source n u hu := by
    rw [asked_newOutput] at hu
    exact h.source n u hu
  artifact n a ha := by
    rw [asked_newOutput, Table.find?_insert] at ha
    split at ha
    · rename_i he
      obtain rfl := Option.some.inj ha
      have hget : (m.newOutput name kind s).artifacts.get (s.artifacts.alloc (.new name kind)).1 =
          .new name kind := Arena.get_alloc_self _ _
      rw [hget]
      exact ⟨Arena.live_alloc_self _ _, he⟩
    · obtain ⟨hlive, hname⟩ := h.artifact n a ha
      obtain ⟨hlive', hname', -⟩ := (m.keepsIdentities_newOutput name kind s).artifact a hlive
      exact ⟨hlive', hname'.trans hname⟩

/-- **What is given for a name has that name,** whatever is called. -/
theorem perform (h : m.Named s) (c : Call) : m.Named (c.perform m s) := by
  rcases m.perform_cases s c with ⟨name, -, hx⟩ | ⟨name, kind, -, -, hx⟩ | ⟨hs, ha⟩
  · rw [hx]
    exact h.newSource name
  · rw [hx]
    exact h.newOutput name kind
  · exact h.of_keepsIdentities (m.keepsIdentities_perform s c) hs ha

/-- **Whatever a manager is called for, everything stays under its own name.** -/
theorem performAll (h : m.Named s) (calls : List Call) : m.Named (m.perform s calls) := by
  induction calls generalizing s with
  | nil => exact h
  | cons c calls ih => exact ih (h.perform c)

/-- **A sink has the name that it was asked for under.** -/
theorem name_sink (h : m.Named s) (hsink : m.sink? name kind s = some sink) : sink.name s = name := by
  unfold sink? at hsink
  split at hsink
  · obtain ⟨u, hu, rfl⟩ := Option.map_eq_some_iff.1 hsink
    exact (h.source name u hu).2
  · obtain ⟨a, ha, rfl⟩ := Option.map_eq_some_iff.1 hsink
    exact (h.artifact name a ha).2

end Named
end FileManager
end LiveBuild
