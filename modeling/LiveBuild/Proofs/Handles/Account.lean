/-
# Calls of materializers, and what they answered

From outside, three things show of an artifact: that it is registered under a name, that a
materializer is called for it, and that a handle is answered for it (`Incident`).  A list of
incidents is accounted for by a store (`Accounted`) if

* a handle that was answered for an artifact is the one that the artifact keeps, and
* a materializer succeeded for an artifact at most once, and not at all as long as the artifact
  keeps no handle.

An answer is accounted for if the artifact keeps what is answered (`Accounted.answers`), and so
are the calls of a materialization, whatever becomes of it (`Accounted.materialize`), and of a
bulk materialization (`Accounted.materializeAll`).
-/

import LiveBuild.Proofs.Handles.Sound
import LiveBuild.Proofs.Loader.Lasting

namespace LiveBuild
namespace Handles

/-- What shows of an artifact from outside. -/
inductive Incident where
  /-- The artifact was registered under a name. -/
  | registered (owned : Ref Namespace) (name : String) (artifact : Ref Artifact)
  /-- A materializer was called for the artifact. -/
  | called (artifact : Ref Artifact) (succeeded : Bool)
  /-- A handle was answered for the artifact. -/
  | answered (artifact : Ref Artifact) (handle : Ref LoadedArtifact)
  deriving DecidableEq

/-- The calls of materializers that were recorded between two stores, as calls for an
artifact. -/
def calls (r : Ref Artifact) (s t : Store) : List Incident :=
  (t.attempts.drop s.attempts.length).map fun a => .called r a.succeeded

/-- The answers to a question for the handles of artifacts. -/
def answers (xs : List (Ref Artifact × Ref LoadedArtifact)) : List Incident :=
  xs.map fun x => .answered x.1 x.2

/-- What a list of incidents says agrees with what artifacts keep. -/
structure Accounted (log : List Incident) (s : Store) : Prop where
  sound : s.Sound
  answered : ∀ r h, .answered r h ∈ log →
    s.artifacts.Live r ∧ (s.artifacts.get r).loaded = some h
  once : ∀ r, log.count (.called r true) ≤ 1
  uncalled : ∀ r, .called r true ∈ log →
    s.artifacts.Live r ∧ (s.artifacts.get r).loaded ≠ none

namespace Accounted

variable {log : List Incident} {s t : Store}

/-- A sound store accounts for nothing having happened yet. -/
theorem start (h : s.Sound) : Accounted [] s :=
  ⟨h, fun _ _ ha => absurd ha List.not_mem_nil, fun _ => Nat.zero_le _,
    fun _ ha => absurd ha List.not_mem_nil⟩

/-- Incidents stay accounted for as long as all artifacts go on. -/
theorem continues (h : Accounted log s) (hst : s.Continues t) (ht : t.Sound) :
    Accounted log t where
  sound := ht
  answered r a ha := by
    obtain ⟨hlive, hloaded⟩ := h.answered r a ha
    obtain ⟨hlive', hone⟩ := hst.artifact r hlive
    exact ⟨hlive', hone.loaded a hloaded⟩
  once := h.once
  uncalled r hr := by
    obtain ⟨hlive, hloaded⟩ := h.uncalled r hr
    obtain ⟨hlive', hone⟩ := hst.artifact r hlive
    obtain ⟨a, ha⟩ := Option.ne_none_iff_exists'.1 hloaded
    exact ⟨hlive', by rw [hone.loaded a ha]; simp⟩

/-- Incidents that are no successful calls. -/
theorem append {more : List Incident} (h : Accounted log s) (hcalls : ∀ r, .called r true ∉ more)
    (hanswers : ∀ r a, .answered r a ∈ more →
      s.artifacts.Live r ∧ (s.artifacts.get r).loaded = some a) : Accounted (log ++ more) s where
  sound := h.sound
  answered r a ha := (List.mem_append.1 ha).elim (h.answered r a) (hanswers r a)
  once r := by
    rw [List.count_append, List.count_eq_zero.2 (hcalls r)]
    exact h.once r
  uncalled r hr := (List.mem_append.1 hr).elim (h.uncalled r) fun hr => absurd hr (hcalls r)

/-- To register an artifact makes no handle. -/
theorem registered (h : Accounted log s) (ns : Ref Namespace) (name : String) (r : Ref Artifact) :
    Accounted (log ++ [.registered ns name r]) s :=
  h.append (by simp) (by simp)

/-- **An answer is accounted for if it is what the artifact keeps.** -/
theorem answers {xs : List (Ref Artifact × Ref LoadedArtifact)} (h : Accounted log s)
    (hxs : ∀ x ∈ xs, s.artifacts.Live x.1 ∧ (s.artifacts.get x.1).loaded = some x.2) :
    Accounted (log ++ Handles.answers xs) s := by
  refine h.append (by simp [Handles.answers]) fun r a ha => ?_
  obtain ⟨x, hx, he⟩ := List.mem_map.1 ha
  cases he
  exact hxs x hx

/-- A materializer succeeds for an artifact that keeps nothing yet. -/
theorem made (h : Accounted log s) {r : Ref Artifact} (hr : s.artifacts.Live r)
    (hnone : (s.artifacts.get r).loaded = none) (m : Materializer) (l : LoadedArtifact) :
    Accounted (log ++ [.called r true]) (s.made m r l) := by
  have hafter := h.continues (.made hnone m l) (h.sound.made m l)
  have hfirst : .called r true ∉ log := fun hin => (h.uncalled r hin).2 hnone
  refine ⟨hafter.sound, fun r' a ha => ?_, fun r' => ?_, fun r' hr' => ?_⟩
  · exact hafter.answered r' a (by simpa using ha)
  · rw [List.count_append]
    by_cases he : r' = r
    · subst he
      rw [List.count_eq_zero.2 hfirst, Nat.zero_add]
      exact List.count_le_length
    · rw [List.count_eq_zero.2 (show Incident.called r' true ∉ [.called r true] by simpa using he)]
      exact h.once r'
  · rcases List.mem_append.1 hr' with hr' | hr'
    · exact hafter.uncalled r' hr'
    · obtain ⟨rfl, -⟩ := Incident.called.inj (List.mem_singleton.1 hr')
      refine ⟨hr, ?_⟩
      rw [Store.made, Arena.get_modify_self]
      simp

/-- **The calls of a materialization are accounted for,** whatever becomes of it. -/
theorem materialize (h : Accounted log s) {r : Ref Artifact} (hr : s.artifacts.Live r)
    (m : Materializer) :
    Accounted (log ++ calls r s ((Store.materialize m r).attempt s).2)
      ((Store.materialize m r).attempt s).2 := by
  rcases Store.materialize_cases m r s with ⟨a, -, hx⟩ | ⟨e, -, -, hx⟩ | ⟨l, hnone, -, hx⟩ <;>
    rw [hx]
  · have hcalls : calls r s s = [] := by simp [calls]
    rwa [hcalls, List.append_nil]
  · have hcalls : calls r s (s.tried m r false) = [.called r false] := by simp [calls, Store.tried]
    have htried : s.Continues (s.tried m r false) := .of_eq rfl rfl
    have hsound : (s.tried m r false).Sound :=
      h.sound.of_loaded rfl rfl (fun _ _ => rfl) fun _ ha => ha
    rw [hcalls]
    exact (h.continues htried hsound).append (by simp) (by simp)
  · have hcalls : calls r s (s.made m r l) = [.called r true] := by
      simp [calls, Store.made, Store.tried]
    rw [hcalls]
    exact h.made hr hnone m l

end Accounted

end Handles

namespace Loader

/-- The calls of a bulk materialization, up to the first that fails. -/
def materializeCalls (l : Loader) : List String → Store → List Handles.Incident
  | [], _ => []
  | name :: names, s =>
    match l.artifact? name s with
    | none => l.materializeCalls names s
    | some r =>
      Handles.calls r s ((Store.materialize l.materializer r).attempt s).2 ++
        match (Store.materialize l.materializer r).attempt s with
        | (.error _, _) => []
        | (.ok _, t) => l.materializeCalls names t

/-- What is answered for the owned artifacts under some names. -/
def materializeAnswers (l : Loader) (s : Store) (built : List (String × Ref LoadedArtifact)) :
    List (Ref Artifact × Ref LoadedArtifact) :=
  built.filterMap fun x => (l.artifact? x.1 s).map fun r => (r, x.2)

end Loader

namespace Handles

variable {log : List Incident} {s t : Store} {l : Loader}

/-- What holds of the calls and the store after each materialization, holds after a bulk
materialization, also if it stops halfway. -/
theorem materializeCalls_preserves {P : List Incident → Store → Prop}
    (hP : ∀ {log s name r}, l.artifact? name s = some r → P log s →
      P (log ++ calls r s ((Store.materialize l.materializer r).attempt s).2)
        ((Store.materialize l.materializer r).attempt s).2)
    (names : List String) (h : P log s) :
    P (log ++ l.materializeCalls names s) ((l.materializeAll names).attempt s).2 := by
  induction names generalizing s log with
  | nil =>
    rw [Loader.materializeCalls, List.append_nil]
    exact h
  | cons name names ih =>
    cases hname : l.artifact? name s with
    | none =>
      rw [Loader.materializeAll_cons_of_unowned hname, Loader.materializeCalls, hname]
      exact ih h
    | some r =>
      have hone := hP hname h
      rw [Loader.materializeCalls, hname]
      rcases hx : (Store.materialize l.materializer r).attempt s with ⟨e | a, t⟩
      · rw [hx] at hone
        rw [Loader.materializeAll_cons_of_refused hname hx]
        simp only [hx, List.append_nil]
        exact hone
      · rw [hx] at hone
        have hrest := ih hone
        rw [Loader.materializeAll_cons_of_made hname hx]
        simp only [hx]
        rw [← List.append_assoc]
        rcases hall : (l.materializeAll names).attempt t with ⟨e | rest, u⟩ <;>
          · rw [hall] at hrest
            exact hrest

/-- **The calls of a bulk materialization are accounted for,** also if it stops halfway. -/
theorem Accounted.materializeAll (h : Accounted log s) (l : Loader) (names : List String) :
    Accounted (log ++ l.materializeCalls names s) ((l.materializeAll names).attempt s).2 :=
  materializeCalls_preserves
    (fun hname h => h.materialize (h.sound.artifact? hname).2 l.materializer) names h

/-- What a bulk materialization answers is what the owned artifacts keep. -/
theorem kept_of_materializeAll {names : List String} {built : List (String × Ref LoadedArtifact)}
    (hall : (l.materializeAll names).attempt s = (.ok built, t)) (ht : t.Sound) :
    ∀ x ∈ l.materializeAnswers s built,
      t.artifacts.Live x.1 ∧ (t.artifacts.get x.1).loaded = some x.2 := by
  intro x hx
  obtain ⟨y, hy, hx⟩ := List.mem_filterMap.1 hx
  obtain ⟨r, hr, rfl⟩ := Option.map_eq_some_iff.1 hx
  obtain ⟨r', hr'⟩ := Loader.holds_of_materializeAll hall y hy
  have hsame := l.artifact?_materializeAll names s y.1
  rw [hall] at hsame
  obtain rfl := Option.some.inj (hr.symm.trans (hsame.symm.trans hr'.owned))
  exact ⟨(ht.artifact? hr'.owned).2, hr'.loaded⟩

end Handles
end LiveBuild
