/-
# What was loaded stays loaded

Once something was made of an artifact, the name under which a loader owns it resolves to
that, without another call of a materializer (`Holds.resolve`), through every course in
which nothing is registered under the name again (`Holds.course`); and the image does not
change either (`Recorded.image_eq`).

After a bulk materialization every name holds what was answered for it
(`holds_of_materializeAll`); one that makes images refuses none (`materializeAll_image`).
-/

import LiveBuild.Proofs.Loader.Record
import LiveBuild.Proofs.Loader.Trials

namespace LiveBuild
namespace Loader

/-- The artifact `r` is owned under a name, and `h` was made of it. -/
structure Holds (l : Loader) (name : String) (r : Ref Artifact) (h : Ref LoadedArtifact)
    (s : Store) : Prop where
  owned : l.artifact? name s = some r
  loaded : (s.artifacts.get r).loaded = some h

variable {l : Loader} {base : Nat} {s t : Store} {log ds : List Deed} {name : String}
  {r : Ref Artifact} {h : Ref LoadedArtifact}

/-- **A name that holds something resolves to it.** -/
theorem Holds.resolve (hh : l.Holds name r h s) : (l.resolve name).attempt s = (.ok h, s) := by
  rw [resolve_of_owned hh.owned, Store.materialize_of_loaded _ hh.loaded]

/-- What was made of an artifact stays when something is made of another one, or asked of this one.
-/
theorem loaded_materialize (m : Materializer) (r' : Ref Artifact)
    (hr : (s.artifacts.get r).loaded = some h) :
    (((Store.materialize m r').attempt s).2.artifacts.get r).loaded = some h := by
  by_cases he : r' = r
  · subst he
    rw [Store.materialize_of_loaded m hr, hr]
  · rw [Store.get_materialize_of_ne m he, hr]

/-- A name holds what it held when an artifact is materialized. -/
theorem Holds.materialize (hh : l.Holds name r h s) (m : Materializer) (r' : Ref Artifact) :
    l.Holds name r h ((Store.materialize m r').attempt s).2 :=
  ⟨by rw [artifact?_materialize, hh.owned], loaded_materialize m r' hh.loaded⟩

/-- A name holds what it held through every step in which nothing is registered under it. -/
theorem Holds.step (hh : l.Holds name r h s) (hrec : l.Recorded base log s)
    (hst : l.Step base s ds t) (hnew : ∀ a, .created name a ∉ ds) : l.Holds name r h t := by
  obtain ⟨hbase, hlive⟩ := hrec.owned name r hh.owned
  cases hst with
  | spared hst =>
    refine ⟨?_, by rw [hst.artifact r hbase hlive, hh.loaded]⟩
    rw [artifact?, table, hst.namespaces]
    exact hh.owned
  | finalized r' => exact ⟨hh.owned, by rw [Store.loaded_finalize, hh.loaded]⟩
  | created name' kind =>
    set r' := (s.newArtifact (.new name' kind)).1
    have hname : ((s.newArtifact (.new name' kind)).2.artifacts.get r').name = name' :=
      congrArg Artifact.name (Arena.get_alloc_self _ _)
    have hne : name' ≠ name := by
      rintro rfl
      exact hnew r' (List.mem_singleton_self _)
    have howner := l.artifact?_register r' (s.newArtifact (.new name' kind)).2 name
    refine ⟨?_, (congrArg Artifact.loaded (Arena.get_alloc_of_live _ hlive)).trans hh.loaded⟩
    rw [hname, if_neg hne] at howner
    exact howner.trans hh.owned
  | @wrote r' bytes a hr hw =>
    refine ⟨hh.owned, ?_⟩
    by_cases he : r' = r
    · subst he
      obtain ⟨-, rfl⟩ := Artifact.write_eq_ok_iff.1 hw
      exact (congrArg Artifact.loaded (Arena.get_set_self _ _ _)).trans hh.loaded
    · exact (congrArg Artifact.loaded (Arena.get_set_of_ne _ _ he)).trans hh.loaded
  | @loaded name' r' hr => exact hh.materialize l.materializer r'

/-- **What was loaded stays loaded** until something is registered under its name. -/
theorem Holds.course {id : Nat} (hl : l.materializer = .image id) (hh : l.Holds name r h s)
    (hrec : l.Recorded base log s) (hst : l.Course base s ds t)
    (hnew : ∀ a, .created name a ∉ ds) : l.Holds name r h t := by
  induction hst with
  | nil => exact hh
  | snoc hst hs ih =>
    have hbefore := ih fun a ha => hnew a (List.mem_append_left _ ha)
    exact hbefore.step (hrec.course hl hst) hs fun a ha => hnew a (List.mem_append_right _ ha)

/-- The image of what a name holds is what had been written when it was first asked for. -/
theorem Recorded.image_eq (hrec : l.Recorded base log s) (hh : l.Holds name r h s) :
    (s.loaded.get h).image = Log.written r (Log.untilLoaded r log) := by
  obtain ⟨hbase, hlive⟩ := hrec.owned name r hh.owned
  exact ((hrec.agrees r hbase hlive).image h hh.loaded).2.2

/-- **An image does not change.** -/
theorem Recorded.image_course {id : Nat} (hl : l.materializer = .image id)
    (hrec : l.Recorded base log s) (hh : l.Holds name r h s) (hst : l.Course base s ds t)
    (hnew : ∀ a, .created name a ∉ ds) :
    (t.loaded.get h).image = (s.loaded.get h).image := by
  obtain ⟨hbase, hlive⟩ := hrec.owned name r hh.owned
  have hasked : .loaded r ∈ log := ((hrec.agrees r hbase hlive).image h hh.loaded).1
  rw [hrec.image_eq hh, (hrec.course hl hst).image_eq (hh.course hl hrec hst hnew),
    Log.untilLoaded_append_of_mem hasked]

/-- What every single materialization preserves, bulk materialization preserves. -/
theorem materializeAll_preserves {P : Store → Prop}
    (hP : ∀ s r, P s → P ((Store.materialize l.materializer r).attempt s).2) (names : List String)
    (hs : P s) : P ((l.materializeAll names).attempt s).2 := by
  induction names generalizing s with
  | nil => exact hs
  | cons name names ih =>
    cases h : l.artifact? name s with
    | none =>
      rw [materializeAll_cons_of_unowned h]
      exact ih hs
    | some r =>
      have hnext := hP s r hs
      rcases hx : (Store.materialize l.materializer r).attempt s with ⟨e | a, t⟩
      · rw [hx] at hnext
        rw [materializeAll_cons_of_refused h hx]
        exact hnext
      · rw [hx] at hnext
        rw [materializeAll_cons_of_made h hx]
        have hrest := ih hnext
        rcases hall : (l.materializeAll names).attempt t with ⟨e | rest, u⟩ <;>
          · rw [hall] at hrest
            exact hrest

/-- Bulk materialization changes no namespace. -/
theorem artifact?_materializeAll (names : List String) (s : Store) (n : String) :
    l.artifact? n ((l.materializeAll names).attempt s).2 = l.artifact? n s :=
  materializeAll_preserves (P := fun t => l.artifact? n t = l.artifact? n s)
    (fun t r ht => by rw [artifact?_materialize, ht]) names rfl

/-- An artifact remembers what was made of it. -/
theorem holds_of_materialize {m : Materializer} (hr : l.artifact? name s = some r)
    (hx : (Store.materialize m r).attempt s = (.ok h, t)) : l.Holds name r h t :=
  ⟨by rw [← hr, ← artifact?_materialize l m r s, hx], Store.loaded_of_materialize hx⟩

/-- **What is answered for a name, the name holds:** nothing that is materialized after it
changes that. -/
theorem holds_of_materializeAll {names : List String} {built : List (String × Ref LoadedArtifact)}
    (hall : (l.materializeAll names).attempt s = (.ok built, t)) :
    ∀ x ∈ built, ∃ r, l.Holds x.1 r x.2 t := by
  induction names generalizing s built with
  | nil =>
    cases hall
    exact fun _ hx => absurd hx List.not_mem_nil
  | cons name names ih =>
    cases hname : l.artifact? name s with
    | none =>
      rw [materializeAll_cons_of_unowned hname] at hall
      exact ih hall
    | some r =>
      rcases hx : (Store.materialize l.materializer r).attempt s with ⟨e | h, u⟩
      · rw [materializeAll_cons_of_refused hname hx] at hall
        cases hall
      · rw [materializeAll_cons_of_made hname hx] at hall
        have hkept : l.Holds name r h ((l.materializeAll names).attempt u).2 :=
          materializeAll_preserves (fun s r' hs => hs.materialize l.materializer r') names
            (holds_of_materialize hname hx)
        rcases hrest : (l.materializeAll names).attempt u with ⟨e | rest, v⟩
        · rw [hrest] at hall
          cases hall
        · rw [hrest] at hall hkept
          cases hall
          intro x hx
          rcases List.mem_cons.1 hx with rfl | hx
          · exact ⟨r, hkept⟩
          · exact ih hrest x hx

/-- The deeds of looking names up depend on what is owned alone. -/
theorem lookups_congr (names : List String) (h : l.table t = l.table s) :
    l.lookups names t = l.lookups names s := by
  unfold lookups artifact?
  rw [h]

/-- **To materialize everything as images succeeds,** and its deeds are lookups of all names. -/
theorem materializeAll_image {id : Nat} (hl : l.materializer = .image id) (base : Nat)
    (names : List String) (s : Store) :
    ∃ built t, (l.materializeAll names).attempt s = (.ok built, t) ∧
      l.Course base s (l.lookups names s) t := by
  induction names generalizing s with
  | nil => exact ⟨[], s, rfl, .nil⟩
  | cons name names ih =>
    cases hname : l.artifact? name s with
    | none =>
      obtain ⟨built, t, hall, hcourse⟩ := ih s
      refine ⟨built, t, by rw [materializeAll_cons_of_unowned hname, hall], ?_⟩
      rwa [lookups, List.filterMap_cons_none (by rw [hname, Option.map_none])]
    | some r =>
      have hstep : l.Step base s [.loaded r] ((Store.materialize l.materializer r).attempt s).2 :=
        .loaded hname
      have htable := l.table_materialize l.materializer r s
      rcases hx : (Store.materialize l.materializer r).attempt s with ⟨e | h, t⟩
      · exfalso
        rcases Store.materialize_cases l.materializer r s with
          ⟨a, -, hx'⟩ | ⟨e', -, he, -⟩ | ⟨a, -, -, hx'⟩
        · rw [hx] at hx'
          cases hx'
        · rw [hl] at he
          cases he
        · rw [hx] at hx'
          cases hx'
      · rw [hx] at hstep htable
        obtain ⟨built, u, hall, hcourse⟩ := ih t
        rw [lookups_congr names htable] at hcourse
        refine ⟨(name, h) :: built, u, by rw [materializeAll_cons_of_made hname hx, hall], ?_⟩
        rw [lookups, List.filterMap_cons_some (by rw [hname, Option.map_some])]
        exact (Course.of_step hstep).trans hcourse

end Loader
end LiveBuild
