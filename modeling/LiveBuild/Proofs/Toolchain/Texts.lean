/-
# Texts stay

A source unit that has a text keeps it, under the name that it has.  Only a pending unit can
be written, and nothing renames a unit or takes its text away:

| | may become | stays |
| --- | --- | --- |
| pending | written, once | |
| written | | as it is |

No operation on the store goes another way (`Store.KeepsTexts`), not even one that fails.  So
whatever a toolchain asks for, every unit with a text is at every moment what it was in the
beginning (`Interaction.keepsTexts_of_mem_transcript`), as long as the host that answers for
names the loader does not own keeps texts too.

To load and to materialize keeps them (`KeepsTexts.bearsLoading`, `KeepsTexts.materialize`), so every
chain of loaders does (`Host.KeepsTexts`).
-/

import LiveBuild.Proofs.Toolchain.Calls

namespace LiveBuild

/-- What can be written is still to be written. -/
theorem SourceUnit.isPending_of_write {u v : SourceUnit} {bytes : Bytes} (h : u.write bytes = .ok v) :
    u.isPending = true := by
  unfold SourceUnit.write at h
  split at h
  · cases h
  · unfold SourceUnit.writeText at h
    split at h
    · rename_i hnone
      rw [isPending, hnone, Option.isNone_none]
    · cases h

namespace Store

/-- Every unit is still there, and every unit with a text is what it was. -/
structure KeepsTexts (s t : Store) : Prop where
  live : ∀ u, s.units.Live u → t.units.Live u
  written : ∀ u, s.units.Live u → (s.units.get u).isPending = false → t.units.get u = s.units.get u

namespace KeepsTexts

variable {s t u : Store}

theorem refl (s : Store) : s.KeepsTexts s := ⟨fun _ h => h, fun _ _ _ => rfl⟩

theorem trans (h : s.KeepsTexts t) (h' : t.KeepsTexts u) : s.KeepsTexts u where
  live r hr := h'.live r (h.live r hr)
  written r hr hw := by
    have ht : t.units.get r = s.units.get r := h.written r hr hw
    exact (h'.written r (h.live r hr) (ht ▸ hw)).trans ht

/-- A change to the rest of the store keeps all texts. -/
theorem of_eq (hu : t.units = s.units) : s.KeepsTexts t := by
  refine ⟨fun r hr => ?_, fun r _ _ => ?_⟩
  · rwa [hu]
  · rw [hu]

/-- A unit is made beside those that there are. -/
theorem of_newUnit (v : SourceUnit) (hu : t.units = (s.units.alloc v).2) : s.KeepsTexts t := by
  refine ⟨fun r hr => ?_, fun r hr _ => ?_⟩
  · rw [hu]
    exact Arena.live_alloc_of_live v hr
  · rw [hu, Arena.get_alloc_of_live v hr]

/-- A pending unit is written. -/
theorem of_setUnit {r : Ref SourceUnit} {v : SourceUnit} (hr : (s.units.get r).isPending = true)
    (hu : t.units = s.units.set r v) : s.KeepsTexts t := by
  refine ⟨fun r' hr' => ?_, fun r' _ hw => ?_⟩
  · rw [hu]
    exact hr'
  · have hne : r ≠ r' := by
      rintro rfl
      rw [hr] at hw
      cases hw
    rw [hu, Arena.get_set_of_ne _ _ hne]

/-- A write keeps all texts, also one that is refused. -/
theorem write (sink : Sink) (bytes : Bytes) (s : Store) :
    s.KeepsTexts ((sink.write bytes).attempt s).2 := by
  rcases sink.write_cases bytes s with ⟨e, hx⟩ | ⟨r, a, -, -, hx⟩ | ⟨u, v, -, hw, hx⟩ <;> rw [hx]
  · exact .refl s
  · exact .of_eq rfl
  · exact .of_setUnit (SourceUnit.isPending_of_write hw) rfl

/-- To finish artifacts keeps all texts. -/
theorem finalizeAll (s : Store) (rs : List (Ref Artifact)) : s.KeepsTexts (s.finalizeAll rs) :=
  .of_eq (by rw [finalizeAll_eq])

/-- What is loaded is no text. -/
theorem bearsLoading : BearsLoading KeepsTexts where
  refl := .refl
  load _ _ _ _ _ := .of_eq rfl

/-- To materialize an artifact keeps all texts. -/
theorem materialize (m : Materializer) (r : Ref Artifact) (s : Store) :
    s.KeepsTexts ((Store.materialize m r).attempt s).2 := by
  obtain ⟨artifacts, loaded, attempts, hx⟩ := store_materialize m r s
  rw [hx]
  exact .of_eq rfl

/-- To run a program keeps all texts. -/
theorem execute (program : Path) (arguments : List String) (stdin : Bytes) (s : Store) :
    s.KeepsTexts (s.execute program arguments stdin).2 := by
  obtain ⟨processes, hx⟩ := s.store_execute program arguments stdin
  rw [hx]
  exact .of_eq rfl

end KeepsTexts
end Store

/-- A host that keeps all texts. -/
abbrev Host.KeepsTexts (h : Host) : Prop := h.Keeps Store.KeepsTexts

/-- **Every call of a file manager keeps all texts:** a source that is asked for is a new
unit. -/
theorem FileManager.keepsTexts_perform (m : FileManager) (s : Store) (c : Call) :
    s.KeepsTexts (c.perform m s) := by
  cases c with
  | outputFor location name kind sibling =>
    rw [Call.perform]
    rcases m.outputFor_cases location name kind sibling s with
      ⟨sink, -, hx⟩ | ⟨-, -, hx⟩ | ⟨-, -, hx⟩ <;> rw [hx]
    · exact .refl s
    · exact .of_newUnit (.pending name) rfl
    · exact .of_eq rfl
  | write sink bytes => exact .write sink bytes s
  | takeGenerated => exact .of_eq rfl
  | finish => exact .finalizeAll s _

variable {m : FileManager}

/-- **Every request keeps all texts.** -/
theorem BuildState.keepsTexts_answer (hparent : m.loader.parent.KeepsTexts) (b : BuildState)
    (r : Request) : b.store.KeepsTexts (b.answer m r).2.store := by
  cases h : r.call? with
  | some c =>
    rw [store_answer_of_call? h]
    exact m.keepsTexts_perform b.store c
  | none =>
    cases r with
    | outputFor | write | takeGenerated => cases h
    | find location name => exact Host.keeps_loader Store.KeepsTexts.materialize hparent name b.store
    | execute program arguments stdin => exact .execute program arguments stdin b.store
    | note journal event => exact .of_eq rfl
    | list | binaryName | same | loaded | resources | read | unit | report => exact .refl b.store

/-- **At every moment of a run,** texts are what they were when it began. -/
theorem Interaction.keepsTexts_of_mem_transcript {α : Type} (hparent : m.loader.parent.KeepsTexts)
    {x : Interaction α} {b b' : BuildState} {r : Request} (h : (b', r) ∈ x.transcript m b) :
    b.store.KeepsTexts b'.store := by
  induction x generalizing b with
  | done a => cases h
  | fail e => cases h
  | panic message => cases h
  | ask r next ih =>
    rw [transcript, List.mem_cons] at h
    rcases h with h | h
    · obtain ⟨rfl, rfl⟩ := Prod.mk.inj h
      exact .refl _
    · exact (b.keepsTexts_answer hparent r).trans (ih _ h)

end LiveBuild
