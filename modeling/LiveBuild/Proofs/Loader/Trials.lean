/-
# Trying every artifact

Bulk materialization stops at the first artifact that does not materialize.  Its second
side is a loader that goes on: `Loader.trials` tries every name in turn, each in the
store that the ones before it left behind, whatever came of them.

`materializeAll_eq_collect` says that bulk materialization is the collection of the
trials up to the first failure.  So it succeeds exactly if every trial does
(`collect_isOk_iff`), and it fails with the error of a trial before which all others
succeeded (`collect_eq_error_iff`).
-/

import LiveBuild.Loader
import LiveBuild.Proofs.Store.Materialization
import Mathlib.Data.List.Nodup

namespace LiveBuild

/-- Values by name, unless one of them is an error: then the first one. -/
def collect {ε α : Type} : List (String × Except ε α) → Except ε (List (String × α))
  | [] => .ok []
  | (_, .error e) :: _ => .error e
  | (n, .ok a) :: ts =>
    match collect ts with
    | .error e => .error e
    | .ok rest => .ok ((n, a) :: rest)

section Collect

variable {ε α : Type}

/-- A value under its name, as the trial that gave it. -/
def success (x : String × α) : String × Except ε α := (x.1, .ok x.2)

/-- Trials that all succeed are collected as they are. -/
theorem collect_map_success (xs : List (String × α)) :
    collect (xs.map success) = (.ok xs : Except ε _) := by
  induction xs with
  | nil => rfl
  | cons x xs ih => rw [List.map_cons, success, collect, ih]

/-- The first trial that fails is the one that decides, whatever comes behind it. -/
theorem collect_map_success_append (xs : List (String × α)) (n : String) (e : ε)
    (after : List (String × Except ε α)) :
    collect (xs.map success ++ (n, .error e) :: after) = .error e := by
  induction xs with
  | nil => rfl
  | cons x xs ih => rw [List.map_cons, List.cons_append, success, collect, ih]

/-- Either every trial succeeds or there is a first one that fails. -/
theorem exists_success_or_failure (ts : List (String × Except ε α)) :
    (∃ xs : List (String × α), ts = xs.map success) ∨
      ∃ (xs : List (String × α)) (n : String) (e : ε) (after : List (String × Except ε α)),
        ts = xs.map success ++ (n, .error e) :: after := by
  induction ts with
  | nil => exact .inl ⟨[], rfl⟩
  | cons t ts ih =>
    obtain ⟨n, e | a⟩ := t
    · exact .inr ⟨[], n, e, ts, rfl⟩
    · rcases ih with ⟨xs, rfl⟩ | ⟨xs, m, e, after, rfl⟩
      · exact .inl ⟨(n, a) :: xs, rfl⟩
      · exact .inr ⟨(n, a) :: xs, m, e, after, rfl⟩

/-- **Trials are collected exactly if all of them succeed.** -/
theorem collect_eq_ok_iff {ts : List (String × Except ε α)} {xs : List (String × α)} :
    collect ts = .ok xs ↔ ts = xs.map success := by
  constructor
  · intro h
    rcases exists_success_or_failure ts with ⟨ys, rfl⟩ | ⟨ys, n, e, after, rfl⟩
    · rw [collect_map_success, Except.ok.injEq] at h
      rw [h]
    · rw [collect_map_success_append] at h
      cases h
  · rintro rfl
    exact collect_map_success xs

/-- **All names have a value exactly if every trial succeeds.** -/
theorem collect_isOk_iff {ts : List (String × Except ε α)} :
    (∃ xs, collect ts = .ok xs) ↔ ∀ t ∈ ts, ∃ a, t.2 = .ok a := by
  constructor
  · rintro ⟨xs, h⟩ t ht
    rw [collect_eq_ok_iff.1 h] at ht
    obtain ⟨x, -, rfl⟩ := List.mem_map.1 ht
    exact ⟨x.2, rfl⟩
  · intro h
    rcases exists_success_or_failure ts with ⟨xs, rfl⟩ | ⟨xs, n, e, after, rfl⟩
    · exact ⟨xs, collect_map_success xs⟩
    · obtain ⟨a, ha⟩ := h (n, .error e) (by simp)
      cases ha

/-- **The error is that of the first trial that fails.** -/
theorem collect_eq_error_iff {ts : List (String × Except ε α)} {e : ε} :
    collect ts = .error e ↔
      ∃ (xs : List (String × α)) (n : String) (after : List (String × Except ε α)),
        ts = xs.map success ++ (n, .error e) :: after := by
  constructor
  · intro h
    rcases exists_success_or_failure ts with ⟨xs, rfl⟩ | ⟨xs, n, e', after, rfl⟩
    · rw [collect_map_success] at h
      cases h
    · rw [collect_map_success_append, Except.error.injEq] at h
      exact ⟨xs, n, after, by rw [h]⟩
  · rintro ⟨xs, n, after, rfl⟩
    exact collect_map_success_append xs n e after

end Collect

namespace Loader

/-- What materializing the artifacts under some names comes to, name by name: each is tried
in the store that the ones before it left behind. -/
def trials (l : Loader) :
    List String → Store → List (String × Except Error (Ref LoadedArtifact))
  | [], _ => []
  | name :: names, s =>
    match l.artifact? name s with
    | none => l.trials names s
    | some r =>
      (name, ((Store.materialize l.materializer r).attempt s).1) ::
        l.trials names ((Store.materialize l.materializer r).attempt s).2

/-- Materializing an artifact changes no namespace. -/
theorem table_materialize (l : Loader) (m : Materializer) (r : Ref Artifact) (s : Store) :
    l.table ((Store.materialize m r).attempt s).2 = l.table s := by
  rw [table, table, Store.namespaces_materialize]

/-- To materialize an artifact changes no owner. -/
theorem artifact?_materialize (l : Loader) (m : Materializer) (r : Ref Artifact) (s : Store)
    (name : String) :
    l.artifact? name ((Store.materialize m r).attempt s).2 = l.artifact? name s := by
  rw [artifact?, artifact?, table_materialize]

/-- Tried are the names given that the loader owns. -/
theorem names_trials (l : Loader) (names : List String) (s : Store) :
    (l.trials names s).map Prod.fst = names.filter fun n => (l.artifact? n s).isSome := by
  induction names generalizing s with
  | nil => rfl
  | cons name names ih =>
    cases h : l.artifact? name s with
    | none => simp [trials, h, ih]
    | some r => simp [trials, h, ih, artifact?_materialize]

/-- Every owned name is tried, in the order of the visit. -/
theorem names_trials_visit (l : Loader) (o : VisitOrder) (s : Store) :
    (l.trials (o.names (l.table s)) s).map Prod.fst = o.names (l.table s) := by
  rw [names_trials, List.filter_eq_self]
  intro n hn
  rw [artifact?, Table.find?_isSome_iff]
  exact (o.perm (l.table s)).mem_iff.1 hn

/-- All trials of a visit succeed if every owned name has a trial that does. -/
theorem trials_visit_succeed_iff (l : Loader) (o : VisitOrder) (s : Store) :
    (∀ t ∈ l.trials (o.names (l.table s)) s, ∃ h, t.2 = .ok h) ↔
      ∀ n ∈ (l.table s).keys, ∃ h, (n, .ok h) ∈ l.trials (o.names (l.table s)) s := by
  have hnames := l.names_trials_visit o s
  have hperm := o.perm (l.table s)
  constructor
  · intro h n hn
    rw [← hperm.mem_iff, ← hnames] at hn
    obtain ⟨⟨k, a⟩, ht, rfl⟩ := List.mem_map.1 hn
    obtain ⟨v, rfl⟩ := h _ ht
    exact ⟨v, ht⟩
  · intro h t ht
    have hn : t.1 ∈ (l.table s).keys := by
      rw [← hperm.mem_iff, ← hnames]
      exact List.mem_map_of_mem ht
    obtain ⟨v, hv⟩ := h t.1 hn
    -- a name is tried once, so the trial that succeeds is this one
    have hnd : ((l.trials (o.names (l.table s)) s).map Prod.fst).Nodup := by
      rw [hnames, hperm.nodup_iff]
      exact (l.table s).nodup_keys
    have heq : t = (t.1, .ok v) := List.inj_on_of_nodup_map hnd ht hv rfl
    exact ⟨v, by rw [heq]⟩

section Steps

variable {l : Loader} {name : String} {s t : Store}

/-- A name without owner is passed over. -/
theorem materializeAll_cons_of_unowned (h : l.artifact? name s = none) (names : List String) :
    (l.materializeAll (name :: names)).attempt s = (l.materializeAll names).attempt s := by
  simp only [Action.attempt, materializeAll, h]

/-- Bulk materialization stops at the first artifact that is refused. -/
theorem materializeAll_cons_of_refused {r : Ref Artifact} {e : Error}
    (h : l.artifact? name s = some r)
    (hx : (Store.materialize l.materializer r).attempt s = (.error e, t)) (names : List String) :
    (l.materializeAll (name :: names)).attempt s = (.error e, t) := by
  rw [Action.attempt_eq_error_iff] at hx ⊢
  simp only [materializeAll, h, hx]

/-- Bulk materialization goes on behind an artifact that was materialized. -/
theorem materializeAll_cons_of_made {r : Ref Artifact} {a : Ref LoadedArtifact}
    (h : l.artifact? name s = some r)
    (hx : (Store.materialize l.materializer r).attempt s = (.ok a, t)) (names : List String) :
    (l.materializeAll (name :: names)).attempt s =
      match (l.materializeAll names).attempt t with
      | (.ok rest, u) => (.ok ((name, a) :: rest), u)
      | (.error e, u) => (.error e, u) := by
  rw [Action.attempt_eq_ok_iff] at hx
  simp only [Action.attempt, materializeAll, h, hx]
  cases l.materializeAll names t <;> rfl

end Steps

/-- **Bulk materialization collects the trials.** -/
theorem materializeAll_eq_collect (l : Loader) (names : List String) (s : Store) :
    ((l.materializeAll names).attempt s).1 = collect (l.trials names s) := by
  induction names generalizing s with
  | nil => rfl
  | cons name names ih =>
    cases h : l.artifact? name s with
    | none => rw [materializeAll_cons_of_unowned h, ih, trials, h]
    | some r =>
      rw [trials, h]
      rcases hx : (Store.materialize l.materializer r).attempt s with ⟨e | a, t⟩
      · rw [materializeAll_cons_of_refused h hx]
        simp only [hx, collect]
      · rw [materializeAll_cons_of_made h hx]
        simp only [hx, collect, ← ih t]
        rcases (l.materializeAll names).attempt t with ⟨e | rest, u⟩ <;> rfl

/-- What is materialized are the owned ones of the names given. -/
theorem names_materializeAll {l : Loader} {names : List String} {s t : Store}
    {built : List (String × Ref LoadedArtifact)}
    (h : (l.materializeAll names).attempt s = (.ok built, t)) :
    built.map Prod.fst = names.filter fun n => (l.artifact? n s).isSome := by
  have hcollect : collect (l.trials names s) = .ok built := by
    rw [← materializeAll_eq_collect, h]
  rw [← names_trials, collect_eq_ok_iff.1 hcollect, List.map_map]
  rfl

end Loader
end LiveBuild
