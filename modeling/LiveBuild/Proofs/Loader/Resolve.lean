/-
# How a name is registered and resolved

To register an artifact changes the owner of its name, in this loader and in no other
(`artifact?_register`, `artifact?_register_of_ne`).

A name that a loader owns is resolved by materializing the artifact, any other name by the
parent (`resolve_of_owned`, `resolve_of_unowned`).  Looking a name up does what resolving
it does, and answers the same, except that a name that is not found is no error.
-/

import LiveBuild.Loader

namespace LiveBuild
namespace Loader

variable {l : Loader} {name : String} {s : Store}

/-- **A registered artifact owns its name,** and every other name stays with its owner. -/
theorem artifact?_register (l : Loader) (r : Ref Artifact) (s : Store) (name : String) :
    l.artifact? name (l.register r s).2 =
      if (s.artifacts.get r).name = name then some r else l.artifact? name s := by
  have htable : l.table (l.register r s).2 = (l.table s).insert (s.artifacts.get r).name r :=
    Arena.get_modify_self _ _ _
  rw [artifact?, htable, Table.find?_insert]
  rfl

/-- A loader with another namespace owns what it owned. -/
theorem artifact?_register_of_ne {l l' : Loader} (h : l'.owned ≠ l.owned) (r : Ref Artifact)
    (s : Store) (name : String) : l.artifact? name (l'.register r s).2 = l.artifact? name s :=
  congrArg (Table.find? · name) (Arena.get_modify_of_ne _ _ h)

/-- A name that the loader owns is resolved by materializing its artifact. -/
theorem resolve_of_owned {r : Ref Artifact} (h : l.artifact? name s = some r) :
    (l.resolve name).attempt s = (Store.materialize l.materializer r).attempt s := by
  simp [Action.attempt, resolve, h]

/-- A name that the loader does not own is resolved by its parent, and is not found where that has
nothing. -/
theorem resolve_of_unowned (h : l.artifact? name s = none) :
    (l.resolve name).attempt s =
      match (l.parent.find? name).attempt s with
      | (.ok (some a), t) => (.ok a, t)
      | (.ok none, t) => (.error (.artifactNotFound name), t)
      | (.error e, t) => (.error e, t) := by
  simp only [Action.attempt, resolve, h]
  cases l.parent.find? name s with
  | error e t => rfl
  | ok a t => cases a <;> rfl

/-- Resolving a name that the loader does not own does to the store what its parent does. -/
theorem store_resolve_of_unowned (h : l.artifact? name s = none) :
    ((l.resolve name).attempt s).2 = ((l.parent.find? name).attempt s).2 := by
  rw [resolve_of_unowned h]
  rcases (l.parent.find? name).attempt s with ⟨e | a, t⟩
  · rfl
  · cases a <;> rfl

/-- Looking a name up does to the store what resolving it does. -/
theorem store_find? (l : Loader) (name : String) (s : Store) :
    ((l.find? name).attempt s).2 = ((l.resolve name).attempt s).2 := by
  unfold Action.attempt find?
  cases l.resolve name s with
  | ok a t => rfl
  | error e t => cases e <;> rfl

/-- A name that the loader does not own is resolved to what its parent finds. -/
theorem find?_parent_of_resolve {h : Ref LoadedArtifact} (hunowned : l.artifact? name s = none)
    (hr : ((l.resolve name).attempt s).1 = .ok h) :
    ((l.parent.find? name).attempt s).1 = .ok (some h) := by
  rw [resolve_of_unowned hunowned] at hr
  rcases hx : (l.parent.find? name).attempt s with ⟨e | a, t⟩
  · rw [hx] at hr
    cases hr
  · rw [hx] at hr
    cases a with
    | none => cases hr
    | some a =>
      cases hr
      rfl

/-- **Looking a name up finds what resolving it gives.** -/
theorem find?_eq_some_iff {h : Ref LoadedArtifact} :
    ((l.find? name).attempt s).1 = .ok (some h) ↔ ((l.resolve name).attempt s).1 = .ok h := by
  unfold Action.attempt find?
  cases l.resolve name s with
  | ok a t => simp
  | error e t => cases e <;> simp

/-- **What a lookup does to a store:** its parent does it, or an owned artifact is materialized. -/
theorem store_find?_cases (l : Loader) (name : String) (s : Store) :
    (l.artifact? name s = none ∧
        ((l.find? name).attempt s).2 = ((l.parent.find? name).attempt s).2) ∨
      ∃ r, l.artifact? name s = some r ∧
        ((l.find? name).attempt s).2 = ((Store.materialize l.materializer r).attempt s).2 := by
  rw [store_find?]
  cases h : l.artifact? name s with
  | none => exact .inl ⟨rfl, store_resolve_of_unowned h⟩
  | some r => exact .inr ⟨r, rfl, by rw [resolve_of_owned h]⟩

end Loader
end LiveBuild
