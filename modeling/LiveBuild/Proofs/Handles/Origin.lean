/-
# Where handles come from

A run from the empty store on knows of every artifact where its handle comes from: there is one
successful call of a materializer for it if it keeps a handle, and none if it keeps none
(`count_called_of_run`).  Half of that is that the run is accounted for (`Accounted`); the other
half is that nothing is kept without a call (`Credited`).

It knows as well what each artifact is owned as: whoever registers it, and whatever happens
afterwards, it is owned under its own name (`ownsByName_of_run`).
-/

import LiveBuild.Proofs.FileManager.Listing
import LiveBuild.Proofs.Handles.Run

namespace LiveBuild
namespace Handles

variable {log more : List Incident} {s t : Store} {l : Loader} {r : Ref Artifact}

/-! ### Nothing is kept without a call -/

/-- What an artifact keeps was made by a call that succeeded. -/
def Credited (log : List Incident) (s : Store) : Prop :=
  ∀ r, s.artifacts.Live r → (s.artifacts.get r).loaded ≠ none → .called r true ∈ log

namespace Credited

/-- What was made by a call before was made by a call, whatever came later. -/
theorem mono (h : Credited log s) (more : List Incident) : Credited (log ++ more) s :=
  fun r hr hloaded => List.mem_append_left _ (h r hr hloaded)

/-- A change after which no artifact keeps more than before. -/
theorem of_loaded (h : Credited log s) (hsize : t.artifacts.size = s.artifacts.size)
    (hloaded : ∀ r, s.artifacts.Live r →
      (t.artifacts.get r).loaded = (s.artifacts.get r).loaded) : Credited log t := by
  intro r hr hkept
  rw [Arena.Live, hsize] at hr
  rw [hloaded r hr] at hkept
  exact h r hr hkept

/-- What happens beside the artifacts needs no call. -/
theorem spares (h : Credited log s) (hst : s.Spares 0 t) : Credited log t :=
  h.of_loaded hst.size fun r hr => by rw [hst.artifact r (Nat.zero_le _) hr]

/-- A new artifact keeps nothing yet. -/
theorem newArtifact (h : Credited log s) (name : String) (kind : Kind) :
    Credited log (s.newArtifact (.new name kind)).2 := by
  intro r hr hkept
  rcases (Arena.live_alloc_iff _ _ _).1 hr with rfl | hr
  · rw [Store.newArtifact, Arena.get_alloc_self] at hkept
    exact absurd rfl hkept
  · rw [Store.newArtifact, Arena.get_alloc_of_live _ hr] at hkept
    exact h r hr hkept

/-- A write makes nothing of an artifact. -/
theorem write (h : Credited log s) (sink : Sink) (bytes : Bytes) :
    Credited log ((sink.write bytes).attempt s).2 := by
  obtain ⟨artifacts, units, hx, hsize, hloaded⟩ := sink.store_write bytes s
  rw [hx]
  exact h.of_loaded hsize fun r _ => hloaded r

/-- **A materialization is credited with what it makes.** -/
theorem materialize (h : Credited log s) (m : Materializer) (r : Ref Artifact) :
    Credited (log ++ calls r s ((Store.materialize m r).attempt s).2)
      ((Store.materialize m r).attempt s).2 := by
  rcases Store.materialize_cases m r s with ⟨a, -, hx⟩ | ⟨e, -, -, hx⟩ | ⟨l, -, -, hx⟩ <;> rw [hx]
  · exact h.mono _
  · exact (h.of_loaded rfl fun _ _ => rfl).mono _
  · have hcalls : calls r s (s.made m r l) = [.called r true] := by
      simp [calls, Store.made, Store.tried]
    intro r' hr' hkept
    rw [hcalls, List.mem_append]
    by_cases he : r = r'
    · subst he
      exact .inr (List.mem_singleton_self _)
    · rw [Store.made, Arena.get_modify_of_ne _ _ he] at hkept
      exact .inl (h r' hr' hkept)

/-- **To ask for an artifact is credited:** what it keeps afterwards that it did not keep before was
made by a call. -/
theorem asked (h : Credited log s) {m : Materializer}
    (ht : t = ((Store.materialize m r).attempt s).2) (answer : Option (Ref LoadedArtifact)) :
    Credited (log ++ Handles.asked (some r) answer s t) t := by
  have hmade := h.materialize m r
  rw [← ht] at hmade
  rw [Handles.asked, ← List.append_assoc]
  exact hmade.mono _

/-- **To resolve a name is credited,** whichever loader of a chain provides it. -/
theorem lookup (h : Credited log s) {base : Host} (hbase : base.Apart Store.empty)
    {ls : List Loader} (hl : base.Over ls l.parent) (name : String)
    (answer : Option (Ref LoadedArtifact)) :
    Credited
      (log ++ Handles.asked (provider? (l :: ls) name s) answer s ((l.resolve name).attempt s).2)
      ((l.resolve name).attempt s).2 := by
  rcases resolve_cases hbase hl name s with ⟨-, hst⟩ | ⟨l', r, -, hprovider, hst, -⟩
  · exact (h.spares hst).mono _
  · rw [hprovider]
    exact h.asked hst answer

/-- A bulk materialization is credited, one artifact after the other. -/
theorem materializeAll (h : Credited log s) (l : Loader) (names : List String) :
    Credited (log ++ l.materializeCalls names s) ((l.materializeAll names).attempt s).2 :=
  materializeCalls_preserves (fun _ h => h.materialize l.materializer _) names h

/-- **Every step is credited with what it makes.** -/
theorem step (h : Credited log s) (hs : Step s more t) : Credited (log ++ more) t := by
  cases hs with
  | artifact name kind => exact (h.newArtifact name kind).mono _
  | loader parent m => exact (h.of_loaded rfl fun _ _ => rfl).mono _
  | register hl hr => exact (h.of_loaded rfl fun _ _ => rfl).mono _
  | write sink bytes => exact (h.write sink bytes).mono _
  | finalize r =>
    exact (h.of_loaded (t := s.finalize r) rfl fun r' _ => s.loaded_finalize r r').mono _
  | materialize hr m => exact h.asked rfl _
  | resolve hbase hl name => exact h.lookup hbase hl name _
  | @find base hbase l ls hl name =>
    rw [l.store_find? name s]
    exact h.lookup hbase hl name _
  | all l o =>
    rw [← List.append_assoc]
    exact (h.materializeAll l (o.names (l.table s))).mono _
  | aside hst => exact (h.spares hst).mono _

/-- **Every run is credited.** -/
theorem run (h : Credited log s) (hs : Run s more t) : Credited (log ++ more) t := by
  induction hs with
  | nil => exact h.mono _
  | snoc _ hstep ih =>
    rw [← List.append_assoc]
    exact ih.step hstep

end Credited

/-- **From the empty store on, an artifact keeps a handle exactly if one call for it succeeded,**
and no artifact has more of them. -/
theorem count_called_of_run (hs : Run Store.empty log s) (hr : s.artifacts.Live r) :
    log.count (.called r true) = if (s.artifacts.get r).loaded.isSome then 1 else 0 := by
  have haccount : Accounted log s := (Accounted.start .empty).run hs
  have hcredit : Credited log s := by
    have hstart : Credited [] Store.empty := fun r hr => absurd hr (Nat.not_lt_zero _)
    exact hstart.run hs
  cases hloaded : (s.artifacts.get r).loaded with
  | none =>
    rw [Option.isSome_none, if_neg Bool.false_ne_true, List.count_eq_zero]
    exact fun hin => (haccount.uncalled r hin).2 hloaded
  | some a =>
    have hcalled : .called r true ∈ log := hcredit r hr (by simp [hloaded])
    have honce := haccount.once r
    have hpos := List.count_pos_iff.2 hcalled
    rw [Option.isSome_some, if_pos rfl]
    omega

/-! ### Everything is owned under its own name -/

/-- Every artifact goes on. -/
theorem Step.continues (h : Step s more t) : s.Continues t := by
  have hresolve : ∀ {base : Host} {l : Loader} {ls : List Loader}, base.Apart Store.empty →
      base.Over ls l.parent → ∀ name, s.Continues ((l.resolve name).attempt s).2 := by
    intro base l ls hbase hl name
    rcases resolve_cases hbase hl name s with ⟨-, hst⟩ | ⟨l', r, -, -, hst, -⟩
    · exact hst.continues
    · rw [hst]
      exact .materialize l'.materializer r s
  cases h with
  | artifact name kind => exact .of_newArtifact (.new name kind) rfl rfl
  | loader parent m => exact .of_eq rfl rfl
  | register hl hr => exact .of_eq rfl rfl
  | write sink bytes => exact .write sink bytes s
  | finalize r => exact .finalize s r
  | @materialize r hr m => exact .materialize m r s
  | resolve hbase hl name => exact hresolve hbase hl name
  | @find base hbase l ls hl name =>
    rw [l.store_find? name s]
    exact hresolve hbase hl name
  | all l o =>
    exact Loader.materializeAll_preserves (fun u r hu => hu.trans (.materialize l.materializer r u))
      (o.names (l.table s)) (.refl s)
  | aside hst => exact hst.continues

end Handles

namespace Loader

variable {l : Loader} {s t : Store}

/-- Everything stays under its own name as long as artifacts go on and their owners stay. -/
theorem OwnsByName.of_continues (h : l.OwnsByName s) (hst : s.Continues t)
    (htable : l.table t = l.table s) : l.OwnsByName t := by
  intro name r hr
  rw [artifact?, htable] at hr
  obtain ⟨hlive, hname⟩ := h name r hr
  obtain ⟨hlive', hone⟩ := hst.artifact r hlive
  exact ⟨hlive', hone.name.trans hname⟩

end Loader

namespace Handles

/-- **No step lets a loader own anything under a name that is not its own.** -/
theorem Step.ownsByName {more : List Incident} {s t : Store} (h : Step s more t)
    (hs : ∀ l : Loader, l.OwnsByName s) (l : Loader) : l.OwnsByName t := by
  have hcontinues := h.continues
  -- most steps leave the tables alone
  have hsame : t.namespaces = s.namespaces → l.OwnsByName t := fun hn =>
    (hs l).of_continues hcontinues (congrArg (·.get l.owned) hn)
  cases h with
  | artifact name kind => exact hsame rfl
  | loader parent m =>
    by_cases he : (s.namespaces.alloc Table.empty).1 = l.owned
    · have htable : l.table (Loader.new parent m s).2 = Table.empty := by
        rw [Loader.table, ← he]
        exact Arena.get_alloc_self _ _
      intro name r hr
      rw [Loader.artifact?, htable] at hr
      cases hr
    · refine (hs l).of_continues hcontinues ?_
      exact (Arena.get_alloc _ _ _).trans (if_neg he)
  | @register l' hl r hr =>
    by_cases he : l'.owned = l.owned
    · have hregister : (l'.register r s).2 = (l.register r s).2 := by
        rw [Loader.register, Loader.register, he]
      rw [hregister]
      exact (hs l).register hr
    · exact (hs l).of_continues hcontinues (Arena.get_modify_of_ne _ _ he)
  | write sink bytes => exact hsame (Store.steady_write sink bytes s).namespaces
  | finalize r => exact hsame rfl
  | @materialize r hr m => exact hsame (Store.namespaces_materialize m r s)
  | resolve hbase hl name => exact hsame (namespaces_resolve hbase hl name s)
  | @find base hbase l' ls hl name =>
    refine hsame ?_
    rw [l'.store_find? name s]
    exact namespaces_resolve hbase hl name s
  | all l' o =>
    refine hsame (Loader.materializeAll_preserves (l := l')
      (P := fun u => u.namespaces = s.namespaces) ?_ (o.names (l'.table s)) rfl)
    intro u r hu
    rw [Store.namespaces_materialize, hu]
  | aside hst => exact hsame hst.namespaces

/-- **In a run from the empty store, what a loader owns has the name that it is owned under.** -/
theorem ownsByName_of_run {log : List Incident} {s : Store} (hs : Run Store.empty log s)
    (l : Loader) : l.OwnsByName s := by
  induction hs generalizing l with
  | nil =>
    intro name r hr
    cases hr
  | snoc _ hstep ih => exact hstep.ownsByName ih l

end Handles
end LiveBuild
