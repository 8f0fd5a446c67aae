/-
# Bulk materialization, taken up again

Bulk materialization stops at the first artifact that does not materialize and keeps what was
made until then.  A materializer that fails a number of times for each name (`FailsFirst`) can so
be called again and again, until nothing fails any more.  The order of the names does not matter
for how often, and it may be another one each time.

What is counted is the failures that are left: for a name whose artifact was not materialized
yet, those that the materializer owes it, and none for any other name (`pending`).

| artifact | materializer | failures left for its name | for other names |
| --- | --- | --- | --- |
| was made before | not called | none, and none after | as they were |
| not yet | refuses | one less | as they were |
| not yet | makes something | none, and none after | as they were |

So a bulk materialization that fails takes one failure away, and one that succeeds finds none
left (`left_materializeAll`), whatever names it got to.  `resumes_of_run` puts this together with
what a bulk materialization leaves alone (`OnlyLoads`) and with the calls there were in the whole
run (`Handles.count_called_of_run`).
-/

import LiveBuild.Proofs.Handles.Origin
import Mathlib.Algebra.BigOperators.Group.List.Basic
import Mathlib.Algebra.GroupWithZero.Nat
import Mathlib.Data.List.Sort

namespace LiveBuild

/-! ### Materializers that fail at first -/

namespace Materializer

/-- The first calls for each name fail, as often as `failures` says, and no other call does. -/
def FailsFirst (m : Materializer) (failures : String → Nat) : Prop :=
  ∀ earlier c, (∃ e, m.answer earlier c = .error e) ↔
    (earlier.filter fun e => e.name = c.name).length < failures c.name

/-- A materializer that fails on purpose fails as often as it was told to, for each name. -/
theorem failsFirst_failing (id : Nat) (failures : Table String Nat) :
    (failing id failures).FailsFirst fun name => (failures.find? name).getD 0 := by
  intro earlier c
  simp only [failing]
  split <;> rename_i hlt
  · exact ⟨fun _ => hlt, fun _ => ⟨_, rfl⟩⟩
  · refine ⟨?_, fun h => absurd h hlt⟩
    rintro ⟨e, he⟩
    cases he

/-- How many calls for a name there were. -/
def callsFor (m : Materializer) (name : String) (s : Store) : Nat :=
  ((m.callsIn s).filter fun c => c.name = name).length

/-- A call counts for the name of the artifact that it was made for. -/
theorem callsFor_tried (m : Materializer) (r : Ref Artifact) (succeeded : Bool) (name : String)
    (s : Store) :
    m.callsFor name (s.tried m r succeeded) =
      m.callsFor name s + if (s.artifacts.get r).name = name then 1 else 0 := by
  have hcalls : m.callsIn (s.tried m r succeeded) = m.callsIn s ++ [s.callFor r] := by
    simp [callsIn, Store.tried]
  rw [callsFor, hcalls, List.filter_append, List.length_append, callsFor, Nat.add_left_cancel_iff,
    List.filter_singleton]
  by_cases h : (s.artifacts.get r).name = name <;> simp [Store.callFor, h]

/-- A materialization is no call for other names. -/
theorem callsFor_materialize {m : Materializer} {r : Ref Artifact} {name : String} {s : Store}
    (h : (s.artifacts.get r).name ≠ name) :
    m.callsFor name ((Store.materialize m r).attempt s).2 = m.callsFor name s := by
  have htried : ∀ succeeded, m.callsFor name (s.tried m r succeeded) = m.callsFor name s := by
    intro succeeded
    rw [callsFor_tried, if_neg h, Nat.add_zero]
  rcases Store.materialize_cases m r s with ⟨a, -, hx⟩ | ⟨e, -, -, hx⟩ | ⟨l, -, -, hx⟩ <;> rw [hx]
  · exact htried false
  · exact htried true

end Materializer

/-! ### What loading leaves alone -/

namespace Store

/-- Nothing but this happens: something is made of artifacts of which nothing was made, and calls
of materializers are recorded. -/
structure OnlyLoads (s t : Store) : Prop where
  rest : t = { s with artifacts := t.artifacts, loaded := t.loaded, attempts := t.attempts }
  size : t.artifacts.size = s.artifacts.size
  artifact : ∀ r,
    t.artifacts.get r = { s.artifacts.get r with loaded := (t.artifacts.get r).loaded }
  kept : ∀ r h, (s.artifacts.get r).loaded = some h → (t.artifacts.get r).loaded = some h
  handle : ∀ h, s.loaded.Live h → t.loaded.Live h ∧ t.loaded.get h = s.loaded.get h

namespace OnlyLoads

variable {s t u : Store}

theorem refl (s : Store) : s.OnlyLoads s :=
  ⟨rfl, rfl, fun _ => rfl, fun _ _ h => h, fun _ h => ⟨h, rfl⟩⟩

theorem trans (h : s.OnlyLoads t) (h' : t.OnlyLoads u) : s.OnlyLoads u where
  rest := by
    rw [h'.rest, h.rest]
  size := h'.size.trans h.size
  artifact r := by
    rw [h'.artifact r, h.artifact r]
  kept r a ha := h'.kept r a (h.kept r a ha)
  handle a ha := by
    obtain ⟨hlive, hget⟩ := h.handle a ha
    obtain ⟨hlive', hget'⟩ := h'.handle a hlive
    exact ⟨hlive', hget'.trans hget⟩

/-- To materialize an artifact only loads. -/
theorem materialize (m : Materializer) (r : Ref Artifact) (s : Store) :
    s.OnlyLoads ((Store.materialize m r).attempt s).2 := by
  have hkept : ∀ r' h, (s.artifacts.get r').loaded = some h →
      (((Store.materialize m r).attempt s).2.artifacts.get r').loaded = some h :=
    fun r' h => Loader.loaded_materialize m r
  have hhandle := (Continues.materialize m r s).handle
  rcases materialize_cases m r s with ⟨a, -, hx⟩ | ⟨e, -, -, hx⟩ | ⟨l, -, -, hx⟩ <;>
    rw [hx] at hkept hhandle ⊢
  · exact .refl s
  · exact ⟨rfl, rfl, fun _ => rfl, hkept, hhandle⟩
  · refine ⟨rfl, rfl, fun r' => ?_, hkept, hhandle⟩
    by_cases he : r = r'
    · subst he
      rw [made, Arena.get_modify_self]
    · rw [made, Arena.get_modify_of_ne _ _ he]

/-- Where things are only loaded, every artifact goes on. -/
theorem continues (h : s.OnlyLoads t) : s.Continues t where
  artifact r hr := by
    refine ⟨?_, ?_⟩
    · rw [Arena.Live, h.size]
      exact hr
    · rw [h.artifact r]
      exact ⟨rfl, rfl, List.prefix_refl _, fun hf => ⟨hf, rfl⟩, h.kept r⟩
  handle := h.handle

/-- Where things are only loaded, every loader owns what it owned. -/
theorem table (h : s.OnlyLoads t) (l : Loader) : l.table t = l.table s := by
  rw [Loader.table, h.rest, Loader.table]

end OnlyLoads
end Store

namespace Loader

variable {l : Loader} {failures : String → Nat} {s t : Store} {name : String} {r : Ref Artifact}
  {h : Ref LoadedArtifact}

/-- Bulk materialization only loads, also if it stops half-way. -/
theorem onlyLoads_materializeAll (l : Loader) (names : List String) (s : Store) :
    s.OnlyLoads ((l.materializeAll names).attempt s).2 :=
  materializeAll_preserves (fun t r ht => ht.trans (.materialize l.materializer r t)) names
    (.refl s)

/-- Materializing all that a loader owns only loads, in whichever order. -/
theorem onlyLoads_allMaterializedIn (l : Loader) (o : VisitOrder) (s : Store) :
    s.OnlyLoads ((l.allMaterializedIn o).attempt s).2 :=
  l.onlyLoads_materializeAll _ s

/-- A name holds what it held where things are only loaded. -/
theorem Holds.of_onlyLoads (hh : l.Holds name r h s) (hst : s.OnlyLoads t) : l.Holds name r h t :=
  ⟨by rw [artifact?, hst.table l, ← artifact?, hh.owned], hst.kept r h hh.loaded⟩

/-- Everything stays under its own name where things are only loaded. -/
theorem OwnsByName.of_onlyLoads (hs : l.OwnsByName s) (hst : s.OnlyLoads t) : l.OwnsByName t :=
  hs.of_continues hst.continues (hst.table l)

/-! ### The failures that are left -/

/-- The failures that are left for a name: none if nothing is owned under it, and none if
something was made of the artifact. -/
def pending (l : Loader) (failures : String → Nat) (s : Store) (name : String) : Nat :=
  match l.artifact? name s with
  | none => 0
  | some r =>
    if (s.artifacts.get r).loaded.isSome then 0
    else failures name - l.materializer.callsFor name s

/-- The failures that are left for all that a loader owns. -/
def failuresLeft (l : Loader) (failures : String → Nat) (s : Store) : Nat :=
  ((l.table s).keys.map (l.pending failures s)).sum

/-- For a name without owner no failure is left. -/
theorem pending_of_unowned (hname : l.artifact? name s = none) : l.pending failures s name = 0 := by
  rw [pending, hname]

/-- For a name of which something was made no failure is left. -/
theorem Holds.pending (hh : l.Holds name r h s) : l.pending failures s name = 0 := by
  rw [Loader.pending, hh.owned]
  exact if_pos (by rw [hh.loaded]; rfl)

/-- For a name of which nothing was made yet, the failures are left that have not happened. -/
theorem pending_of_unloaded (hname : l.artifact? name s = some r)
    (hnone : (s.artifacts.get r).loaded = none) :
    l.pending failures s name = failures name - l.materializer.callsFor name s := by
  rw [pending, hname]
  exact if_neg (by rw [hnone]; exact Bool.false_ne_true)

/-- **A materialization takes a failure away if it fails, and finds none left if it does not.** -/
theorem pending_materialize (hm : l.materializer.FailsFirst failures) (hs : l.OwnsByName s)
    (hname : l.artifact? name s = some r) :
    (∃ h t, (Store.materialize l.materializer r).attempt s = (.ok h, t) ∧
        l.pending failures s name = 0) ∨
      ∃ e t, (Store.materialize l.materializer r).attempt s = (.error e, t) ∧
        l.pending failures s name = l.pending failures t name + 1 := by
  have hown : (s.artifacts.get r).name = name := (hs name r hname).2
  have hfails : (∃ e, l.materializer.answer (l.materializer.callsIn s) (s.callFor r) = .error e) ↔
      l.materializer.callsFor name s < failures name := by
    rw [hm, Store.callFor, hown, Materializer.callsFor]
  rcases Store.materialize_cases l.materializer r s with
    ⟨h, hloaded, hx⟩ | ⟨e, hnone, he, hx⟩ | ⟨a, hnone, ha, hx⟩
  · exact .inl ⟨h, s, hx, Holds.pending ⟨hname, hloaded⟩⟩
  · refine .inr ⟨e, _, hx, ?_⟩
    have hlt := hfails.1 ⟨e, he⟩
    have hcalls := l.materializer.callsFor_tried r false name s
    rw [if_pos hown] at hcalls
    have hname' : l.artifact? name (s.tried l.materializer r false) = some r := hname
    -- `failures` is not used up yet, so the difference that is subtracted from is not cut off
    rw [pending_of_unloaded hname hnone, pending_of_unloaded hname' hnone, hcalls]
    omega
  · refine .inl ⟨_, _, hx, ?_⟩
    have hnot : ¬ l.materializer.callsFor name s < failures name := by
      intro hlt
      obtain ⟨e, he⟩ := hfails.2 hlt
      rw [ha] at he
      cases he
    rw [pending_of_unloaded hname hnone]
    omega

/-- A materialization leaves the failures for other names as they were. -/
theorem pending_materialize_of_ne (hs : l.OwnsByName s) (hname : l.artifact? name s = some r)
    {n : String} (hn : n ≠ name) :
    l.pending failures ((Store.materialize l.materializer r).attempt s).2 n =
      l.pending failures s n := by
  have hown : (s.artifacts.get r).name = name := (hs name r hname).2
  have hcalls : l.materializer.callsFor n ((Store.materialize l.materializer r).attempt s).2 =
      l.materializer.callsFor n s :=
    Materializer.callsFor_materialize (by rw [hown]; exact hn.symm)
  rw [pending, pending, artifact?_materialize, hcalls]
  cases hr : l.artifact? n s with
  | none => rfl
  | some r' =>
    have hne : r ≠ r' := by
      rintro rfl
      exact hn ((hs n r hr).2.symm.trans hown)
    simp only [Store.get_materialize_of_ne l.materializer hne s]

/-- **A bulk materialization takes a failure away if it fails, and finds none left if it does
not,** whichever names it gets to. -/
theorem left_materializeAll (hm : l.materializer.FailsFirst failures) {names : List String}
    (hnodup : names.Nodup) (hs : l.OwnsByName s) :
    (∃ built t, (l.materializeAll names).attempt s = (.ok built, t) ∧
        (names.map (l.pending failures s)).sum = 0 ∧ (names.map (l.pending failures t)).sum = 0) ∨
      ∃ e t, (l.materializeAll names).attempt s = (.error e, t) ∧
        (names.map (l.pending failures s)).sum = (names.map (l.pending failures t)).sum + 1 := by
  induction names generalizing s with
  | nil => exact .inl ⟨[], s, rfl, rfl, rfl⟩
  | cons name names ih =>
    obtain ⟨hfirst, hnodup⟩ := List.nodup_cons.1 hnodup
    simp only [List.map_cons, List.sum_cons]
    cases hname : l.artifact? name s with
    | none =>
      have hunowned : l.artifact? name ((l.materializeAll names).attempt s).2 = none := by
        rw [artifact?_materializeAll, hname]
      rw [materializeAll_cons_of_unowned hname, pending_of_unowned hname]
      rcases ih hnodup hs with ⟨built, t, hx, hleft, hleft'⟩ | ⟨e, t, hx, hleft⟩ <;>
        rw [hx] at hunowned
      · exact .inl ⟨built, t, hx, by rw [hleft], by rw [pending_of_unowned hunowned, hleft']⟩
      · exact .inr ⟨e, t, hx, by rw [pending_of_unowned hunowned, hleft, Nat.add_assoc]⟩
    | some r =>
      have hothers : names.map (l.pending failures
          ((Store.materialize l.materializer r).attempt s).2) =
            names.map (l.pending failures s) :=
        List.map_congr_left fun n hn =>
          pending_materialize_of_ne hs hname (ne_of_mem_of_not_mem hn hfirst)
      have howns := hs.of_onlyLoads (.materialize l.materializer r s)
      rcases pending_materialize hm hs hname with ⟨h, t, hx, hnone⟩ | ⟨e, t, hx, hone⟩ <;>
        rw [hx] at hothers howns
      -- what was made stays, so nothing is left for the name, wherever the rest stops
      · have hholds : l.Holds name r h ((l.materializeAll names).attempt t).2 :=
          (holds_of_materialize hname hx).of_onlyLoads (l.onlyLoads_materializeAll names t)
        rw [materializeAll_cons_of_made hname hx, hnone, ← hothers]
        rcases ih hnodup howns with ⟨built, u, hall, hleft, hleft'⟩ | ⟨e, u, hall, hleft⟩ <;>
          rw [hall] at hholds ⊢
        · exact .inl ⟨_, u, rfl, by rw [hleft], by rw [hholds.pending, hleft']⟩
        · exact .inr ⟨e, u, rfl, by rw [hholds.pending, hleft, Nat.add_assoc]⟩
      · refine .inr ⟨e, t, materializeAll_cons_of_refused hname hx names, ?_⟩
        rw [hothers, hone]
        omega

/-- **The same in any order of a visit.** -/
theorem failuresLeft_allMaterializedIn (hm : l.materializer.FailsFirst failures)
    (hs : l.OwnsByName s) (o : VisitOrder) :
    (∃ built t, (l.allMaterializedIn o).attempt s = (.ok built, t) ∧
        l.failuresLeft failures s = 0 ∧ l.failuresLeft failures t = 0) ∨
      ∃ e t, (l.allMaterializedIn o).attempt s = (.error e, t) ∧
        l.failuresLeft failures s = l.failuresLeft failures t + 1 := by
  have hperm := o.perm (l.table s)
  have hnodup : (o.names (l.table s)).Nodup := hperm.nodup_iff.2 (l.table s).nodup_keys
  have htable : l.table ((l.materializeAll (o.names (l.table s))).attempt s).2 = l.table s :=
    (l.onlyLoads_materializeAll _ s).table l
  have hleft : ∀ t, l.table t = l.table s →
      ((o.names (l.table s)).map (l.pending failures t)).sum = l.failuresLeft failures t := by
    intro t ht
    rw [failuresLeft, ht]
    exact (hperm.map _).sum_eq
  rcases left_materializeAll hm hnodup hs with ⟨built, t, hx, hzero, hzero'⟩ | ⟨e, t, hx, hone⟩ <;>
    rw [hx] at htable
  · exact .inl ⟨built, t, hx, by rw [← hleft s rfl, hzero], by rw [← hleft t htable, hzero']⟩
  · exact .inr ⟨e, t, hx, by rw [← hleft s rfl, ← hleft t htable, hone]⟩

/-! ### Again and again -/

/-- What shows of a bulk materialization. -/
def incidents (l : Loader) (o : VisitOrder) (s : Store) : List Handles.Incident :=
  l.materializeCalls (o.names (l.table s)) s ++
    Handles.answers (l.materializeAnswers s
      (((l.allMaterializedIn o).attempt s).1.toOption.getD []))

/-- The store after a number of bulk materializations, each in an order of its own. -/
def repeated (l : Loader) (o : Nat → VisitOrder) (s : Store) : Nat → Store
  | 0 => s
  | k + 1 => ((l.allMaterializedIn (o k)).attempt (l.repeated o s k)).2

/-- What shows of a number of bulk materializations. -/
def repeatedLog (l : Loader) (o : Nat → VisitOrder) (s : Store) : Nat → List Handles.Incident
  | 0 => []
  | k + 1 => l.repeatedLog o s k ++ l.incidents (o k) (l.repeated o s k)

/-- One more bulk materialization only loads. -/
theorem onlyLoads_repeated_succ (l : Loader) (o : Nat → VisitOrder) (s : Store) (k : Nat) :
    (l.repeated o s k).OnlyLoads (l.repeated o s (k + 1)) :=
  l.onlyLoads_materializeAll _ _

/-- More bulk materializations only load. -/
theorem onlyLoads_repeated_of_le (l : Loader) (o : Nat → VisitOrder) (s : Store) {j k : Nat}
    (h : j ≤ k) : (l.repeated o s j).OnlyLoads (l.repeated o s k) := by
  induction h with
  | refl => exact .refl _
  | @step k _ ih => exact ih.trans (l.onlyLoads_repeated_succ o s k)

/-- Any number of bulk materializations only load. -/
theorem onlyLoads_repeated (l : Loader) (o : Nat → VisitOrder) (s : Store) (k : Nat) :
    s.OnlyLoads (l.repeated o s k) :=
  l.onlyLoads_repeated_of_le o s (Nat.zero_le k)

/-- To repeat a bulk materialization is a run. -/
theorem run_repeated {origin : Store} {log : List Handles.Incident}
    (hs : Handles.Run origin log s) (l : Loader) (o : Nat → VisitOrder) (k : Nat) :
    Handles.Run origin (log ++ l.repeatedLog o s k) (l.repeated o s k) := by
  induction k with
  | zero =>
    rw [repeatedLog, List.append_nil]
    exact hs
  | succ k ih =>
    rw [repeatedLog, ← List.append_assoc]
    exact ih.snoc (.all l (o k))

/-- Each repetition takes a failure away, as long as there are any. -/
theorem failuresLeft_repeated (hm : l.materializer.FailsFirst failures) (hs : l.OwnsByName s)
    (o : Nat → VisitOrder) (k : Nat) :
    l.failuresLeft failures (l.repeated o s k) = l.failuresLeft failures s - k := by
  induction k with
  | zero => rfl
  | succ k ih =>
    have howns := hs.of_onlyLoads (l.onlyLoads_repeated o s k)
    rw [repeated]
    rcases failuresLeft_allMaterializedIn hm howns (o k) with
      ⟨built, t, hx, hzero, hzero'⟩ | ⟨e, t, hx, hone⟩ <;> simp only [hx] <;> omega

/-- **A repetition fails exactly as long as there are failures left.** -/
theorem fails_repeated_iff (hm : l.materializer.FailsFirst failures) (hs : l.OwnsByName s)
    (o : Nat → VisitOrder) (k : Nat) :
    (∃ e, ((l.allMaterializedIn (o k)).attempt (l.repeated o s k)).1 = .error e) ↔
      k < l.failuresLeft failures s := by
  have howns := hs.of_onlyLoads (l.onlyLoads_repeated o s k)
  have hleft := failuresLeft_repeated hm hs o k
  rcases failuresLeft_allMaterializedIn hm howns (o k) with
    ⟨built, t, hx, hzero, -⟩ | ⟨e, t, hx, hone⟩ <;> rw [hx]
  · refine ⟨?_, fun hlt => by omega⟩
    rintro ⟨e, he⟩
    cases he
  · exact ⟨fun _ => by omega, fun _ => ⟨e, rfl⟩⟩

/-- A bulk materialization answers for all names that are owned. -/
theorem names_allMaterializedIn {o : VisitOrder} {built : List (String × Ref LoadedArtifact)}
    (hx : (l.allMaterializedIn o).attempt s = (.ok built, t)) :
    (built.map Prod.fst).Perm (l.table s).keys := by
  rw [names_materializeAll hx, ← names_trials, names_trials_visit]
  exact o.perm (l.table s)

/-- **Answered is what the owned artifacts keep,** and nothing else. -/
theorem mem_allMaterializedIn_iff {o : VisitOrder} {built : List (String × Ref LoadedArtifact)}
    (hx : (l.allMaterializedIn o).attempt s = (.ok built, t)) (name : String)
    (h : Ref LoadedArtifact) : (name, h) ∈ built ↔ ∃ r, l.Holds name r h t := by
  have hholds := holds_of_materializeAll hx
  refine ⟨hholds (name, h), fun ⟨r, hh⟩ => ?_⟩
  have htable := (l.onlyLoads_allMaterializedIn o s).table l
  rw [hx] at htable
  have hname : name ∈ built.map Prod.fst := by
    rw [(names_allMaterializedIn hx).mem_iff, ← Table.find?_isSome_iff, ← htable, ← artifact?,
      hh.owned, Option.isSome_some]
  obtain ⟨⟨n, h'⟩, hin, rfl⟩ := List.mem_map.1 hname
  obtain ⟨r', hh'⟩ := hholds _ hin
  obtain rfl := Option.some.inj (hh.owned.symm.trans hh'.owned)
  obtain rfl := Option.some.inj (hh.loaded.symm.trans hh'.loaded)
  exact hin

/-- **If an artifact is materialized in the end, one call for it succeeded,** before the
repetitions or in one of them. -/
theorem count_called_repeated {log : List Handles.Incident}
    (hs : Handles.Run Store.empty log s) {o : Nat → VisitOrder} {k : Nat}
    (hlive : s.artifacts.Live r) (hkept : ((l.repeated o s k).artifacts.get r).loaded = some h) :
    (log ++ l.repeatedLog o s k).count (.called r true) = 1 ∧
      (l.repeatedLog o s k).count (.called r true) =
        if (s.artifacts.get r).loaded.isSome then 0 else 1 := by
  have hlater := (l.onlyLoads_repeated o s k).continues.live hlive
  have hbefore := Handles.count_called_of_run hs hlive
  have htotal := Handles.count_called_of_run (run_repeated hs l o k) hlater
  rw [hkept, Option.isSome_some, if_pos rfl] at htotal
  refine ⟨htotal, ?_⟩
  rw [List.count_append, hbefore] at htotal
  split at htotal <;> rename_i hloaded
  · rw [if_pos hloaded]
    omega
  · rw [if_neg hloaded]
    omega

/-- **Bulk materialization is taken up again without loss.**  After any run, with a materializer
that fails the first calls for each name, and in whatever orders the names are visited:

* Repeated bulk materializations fail exactly as often as there were failures left.
* None of them changes anything but that artifacts are materialized: no registration, no bytes,
  and nothing that was made of an artifact before.
* The first that does not fail answers for exactly the owned names, with what they resolve to
  from then on, and among it is all that was made in between.
* By then one call succeeded for every owned artifact, in the whole run and the repetitions
  together; it is one of the repetitions exactly if nothing was made of the artifact before. -/
theorem resumes_of_run {log : List Handles.Incident} (hs : Handles.Run Store.empty log s)
    (hm : l.materializer.FailsFirst failures) (o : Nat → VisitOrder) :
    let left := l.failuresLeft failures s
    (∀ k, (∃ e, ((l.allMaterializedIn (o k)).attempt (l.repeated o s k)).1 = .error e) ↔
        k < left) ∧
      (∀ k, (l.repeated o s k).OnlyLoads (l.repeated o s (k + 1))) ∧
      (∃ built,
        (l.allMaterializedIn (o left)).attempt (l.repeated o s left) =
            (.ok built, l.repeated o s (left + 1)) ∧
          (built.map Prod.fst).Perm (l.table s).keys ∧
          (∀ x ∈ built, (l.resolve x.1).attempt (l.repeated o s (left + 1)) =
            (.ok x.2, l.repeated o s (left + 1))) ∧
          ∀ k ≤ left, ∀ name r h, l.Holds name r h (l.repeated o s k) → (name, h) ∈ built) ∧
      ∀ name r, l.artifact? name s = some r →
        (log ++ l.repeatedLog o s (left + 1)).count (.called r true) = 1 ∧
          (l.repeatedLog o s (left + 1)).count (.called r true) =
            if (s.artifacts.get r).loaded.isSome then 0 else 1 := by
  intro left
  have howns : l.OwnsByName s := Handles.ownsByName_of_run hs l
  have hfails := fails_repeated_iff hm howns o
  obtain ⟨built, hbuilt⟩ : ∃ built, (l.allMaterializedIn (o left)).attempt (l.repeated o s left) =
      (.ok built, l.repeated o s (left + 1)) := by
    cases hx : ((l.allMaterializedIn (o left)).attempt (l.repeated o s left)).1 with
    | error e => exact absurd ((hfails left).1 ⟨e, hx⟩) (Nat.lt_irrefl left)
    | ok built => exact ⟨built, Prod.ext hx rfl⟩
  have hnames : (built.map Prod.fst).Perm (l.table s).keys := by
    rw [← (l.onlyLoads_repeated o s left).table l]
    exact names_allMaterializedIn hbuilt
  refine ⟨hfails, l.onlyLoads_repeated_succ o s, ⟨built, hbuilt, hnames, fun x hx => ?_,
    fun k hk name r h hh => ?_⟩, fun name r hname => ?_⟩
  · obtain ⟨r, hh⟩ := holds_of_materializeAll hbuilt x hx
    exact hh.resolve
  · have hkept := hh.of_onlyLoads (l.onlyLoads_repeated_of_le o s (Nat.le_succ_of_le hk))
    exact (mem_allMaterializedIn_iff hbuilt name h).2 ⟨r, hkept⟩
  · have hin : name ∈ built.map Prod.fst := by
      rw [hnames.mem_iff, ← Table.find?_isSome_iff, ← artifact?, hname, Option.isSome_some]
    obtain ⟨⟨n, h⟩, hx, rfl⟩ := List.mem_map.1 hin
    obtain ⟨r', hh⟩ := holds_of_materializeAll hbuilt _ hx
    have howner : l.artifact? n (l.repeated o s (left + 1)) = some r := by
      rw [artifact?, (l.onlyLoads_repeated o s (left + 1)).table l, ← artifact?, hname]
    obtain rfl := Option.some.inj (howner.symm.trans hh.owned)
    exact count_called_repeated hs (howns n r hname).1 hh.loaded

/-- How often a materializer fails. -/
def fussiness : Table String Nat := (Table.empty.insert "A" 2).insert "B" 1

/-- A loader with that materializer. -/
def fussy : Loader × Store := Loader.new Host.empty (.failing 0 fussiness) Store.empty

/-- It owns three artifacts, and the materializer was called for `B` once. -/
def fussyStore : Store :=
  let a := (fussy.1.register ⟨0⟩ (fussy.2.newArtifact (.new "A" .compiled)).2).2
  let b := (fussy.1.register ⟨1⟩ (a.newArtifact (.new "B" .compiled)).2).2
  let c := (fussy.1.register ⟨2⟩ (b.newArtifact (.new "C" .compiled)).2).2
  ((fussy.1.resolve "B").attempt c).2

/-- The names in increasing order, and once the other way round. -/
def turnedOnce (k : Nat) : VisitOrder :=
  if k = 1 then ⟨fun t => t.sorted.reverse, fun t => (List.reverse_perm _).trans t.sorted_perm⟩
  else .increasing

/-- The names a bulk materialization goes through, put in order one after the other. -/
theorem attempt_turnedOnce (k : Nat) (s : Store) :
    (l.allMaterializedIn (turnedOnce k)).attempt s =
      (l.materializeAll
        (if k = 1 then ((l.table s).keys.insertionSort fun a b => a ≤ b).reverse
          else (l.table s).keys.insertionSort fun a b => a ≤ b)).attempt s := by
  have : Std.Total fun a b : String => a ≤ b := ⟨String.le_total⟩
  have : IsTrans String fun a b => a ≤ b := ⟨fun _ _ _ => String.le_trans⟩
  have : Std.Antisymm fun a b : String => a ≤ b := ⟨fun _ _ => String.le_antisymm⟩
  rw [turnedOnce, ← List.mergeSort_eq_insertionSort]
  split <;> rfl

/-- **Two failures are left, both for `A`:** the second call fails as well, but only after it made
something of `B` and `C`, and the third call answers that. -/
theorem resumes_of_run_fussy :
    (∃ e, ((fussy.1.allMaterializedIn (turnedOnce 0)).attempt fussyStore).1 = .error e) ∧
      (∃ e, ((fussy.1.allMaterializedIn (turnedOnce 1)).attempt
        (fussy.1.repeated turnedOnce fussyStore 1)).1 = .error e) ∧
      ∃ built, ((fussy.1.allMaterializedIn (turnedOnce 2)).attempt
          (fussy.1.repeated turnedOnce fussyStore 2)).1 = .ok built ∧
        (built.map Prod.fst).Perm ["A", "B", "C"] ∧ ("C", ⟨0⟩) ∈ built := by
  have ha : Handles.Run Store.empty _ (fussy.2.newArtifact (.new "A" .compiled)).2 :=
    (Handles.Run.nil.snoc (.loader Host.empty (.failing 0 fussiness))).snoc
      (.artifact "A" .compiled)
  have hb := (ha.snoc (.register (l := fussy.1) (r := ⟨0⟩) (by decide) (by decide))).snoc
    (.artifact "B" .compiled)
  have hc := (hb.snoc (.register (l := fussy.1) (r := ⟨1⟩) (by decide) (by decide))).snoc
    (.artifact "C" .compiled)
  have hall := hc.snoc (.register (l := fussy.1) (r := ⟨2⟩) (by decide) (by decide))
  have hbase : Host.empty.Over [] fussy.1.parent := .base
  have hrun : Handles.Run Store.empty _ fussyStore :=
    hall.snoc (.resolve (Host.keeps_empty (Host.bearsLoading_apart _)) hbase "B")
  have hleft : fussy.1.failuresLeft (fun name => (fussiness.find? name).getD 0) fussyStore = 2 :=
    rfl
  have hresumes := resumes_of_run (l := fussy.1) hrun (Materializer.failsFirst_failing 0 fussiness)
    turnedOnce
  simp only [hleft] at hresumes
  obtain ⟨hfails, -, ⟨built, hbuilt, hnames, -, hkept⟩, -⟩ := hresumes
  have hholds : fussy.1.Holds "C" ⟨2⟩ ⟨0⟩ (fussy.1.repeated turnedOnce fussyStore 2) := by
    constructor <;> simp only [repeated, attempt_turnedOnce] <;> decide +kernel
  refine ⟨(hfails 0).2 (by decide), (hfails 1).2 (by decide), built, by rw [hbuilt], ?_,
    hkept 2 (Nat.le_refl 2) _ _ _ hholds⟩
  exact hnames

end Loader
end LiveBuild
