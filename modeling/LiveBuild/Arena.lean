/-
# Arenas

Objects with an identity of their own, such as a source unit that two parties
hold at once, live in an arena and are named by references.  Two references are
equal exactly if they name the same object, whatever the objects contain.

`alloc` makes a new object, `get` and `set` read and replace the object that a
reference names.  Every reference names an object: one that was never allocated
names the default object of its type.  So the equations of `set` need no side
condition, and only `alloc` distinguishes the references given out so far
(`Live`) from the fresh one.
-/

import LiveBuild.Table

namespace LiveBuild

/-- A name for one object of an arena. -/
structure Ref (α : Type) where
  index : Nat
  deriving Repr

/-- A reference is its index. -/
theorem Ref.index_eq_iff {α : Type} {r s : Ref α} : r.index = s.index ↔ r = s := by
  cases r; cases s; simp

instance {α : Type} : DecidableEq (Ref α) := fun _ _ => decidable_of_iff _ Ref.index_eq_iff

instance {α : Type} : Inhabited (Ref α) := ⟨⟨0⟩⟩

/-- A growing collection of objects. -/
structure Arena (α : Type) where
  /-- How many objects were allocated. -/
  size : Nat
  /-- The objects by the indices of their references. -/
  cells : Table Nat α

namespace Arena

variable {α : Type}

/-- The arena without objects. -/
def empty : Arena α := ⟨0, Table.empty⟩

instance : Inhabited (Arena α) := ⟨empty⟩

/-- A reference that was given out by this arena. -/
def Live (a : Arena α) (r : Ref α) : Prop := r.index < a.size

instance (a : Arena α) (r : Ref α) : Decidable (a.Live r) := by unfold Live; infer_instance

/-- The object that a reference names. -/
def get [Inhabited α] (a : Arena α) (r : Ref α) : α := (a.cells.find? r.index).getD default

/-- The arena with another object under a reference. -/
def set (a : Arena α) (r : Ref α) (v : α) : Arena α := { a with cells := a.cells.insert r.index v }

/-- The arena with the object under a reference changed. -/
def modify [Inhabited α] (a : Arena α) (r : Ref α) (f : α → α) : Arena α := a.set r (f (a.get r))

/-- A new object: its reference, and the arena that holds it. -/
def alloc (a : Arena α) (v : α) : Ref α × Arena α :=
  (⟨a.size⟩, ⟨a.size + 1, a.cells.insert a.size v⟩)

/-- An object that is replaced is the new one, and every other one is what it was. -/
theorem get_set [Inhabited α] (a : Arena α) (r s : Ref α) (v : α) :
    (a.set r v).get s = if r = s then v else a.get s := by
  by_cases h : r = s
  · subst h; simp [set, get]
  · have hi : r.index ≠ s.index := fun he => h (Ref.index_eq_iff.1 he)
    simp [set, get, Table.find?_insert, hi, h]

@[simp] theorem get_set_self [Inhabited α] (a : Arena α) (r : Ref α) (v : α) :
    (a.set r v).get r = v := by
  simp [get_set]

/-- Replacing an object leaves every other one as it is. -/
theorem get_set_of_ne [Inhabited α] (a : Arena α) {r s : Ref α} (v : α) (h : r ≠ s) :
    (a.set r v).get s = a.get s := by
  simp [get_set, h]

/-- An object that is modified is modified once, also where it was not made yet. -/
@[simp] theorem get_modify_self [Inhabited α] (a : Arena α) (r : Ref α) (f : α → α) :
    (a.modify r f).get r = f (a.get r) := by
  simp [modify]

/-- Modifying an object leaves every other one as it is. -/
theorem get_modify_of_ne [Inhabited α] (a : Arena α) {r s : Ref α} (f : α → α) (h : r ≠ s) :
    (a.modify r f).get s = a.get s :=
  get_set_of_ne a _ h

@[simp] theorem size_set (a : Arena α) (r : Ref α) (v : α) : (a.set r v).size = a.size := rfl

@[simp] theorem size_modify [Inhabited α] (a : Arena α) (r : Ref α) (f : α → α) :
    (a.modify r f).size = a.size := rfl

@[simp] theorem size_alloc (a : Arena α) (v : α) : (a.alloc v).2.size = a.size + 1 := rfl

/-- A new object is found under its reference. -/
@[simp] theorem get_alloc_self [Inhabited α] (a : Arena α) (v : α) :
    (a.alloc v).2.get (a.alloc v).1 = v := by
  simp [alloc, get]

/-- **A new object is found under its reference,** and every other one is what it was. -/
theorem get_alloc [Inhabited α] (a : Arena α) (v : α) (r : Ref α) :
    (a.alloc v).2.get r = if (a.alloc v).1 = r then v else a.get r := by
  by_cases h : (a.alloc v).1 = r
  · subst h
    simp
  · have hi : a.size ≠ r.index := fun he => h (Ref.index_eq_iff.1 he)
    simp [alloc, get, Table.find?_insert, hi, Ref.index_eq_iff.symm]

/-- **A new object is none of the older ones.** -/
theorem alloc_ne_of_live {a : Arena α} (v : α) {r : Ref α} (h : a.Live r) : (a.alloc v).1 ≠ r := by
  intro he
  have : r.index < a.size := h
  simp [← he, alloc] at this

/-- **An allocation leaves every older object as it is.** -/
theorem get_alloc_of_live [Inhabited α] {a : Arena α} (v : α) {r : Ref α} (h : a.Live r) :
    (a.alloc v).2.get r = a.get r := by
  rw [get_alloc, if_neg (alloc_ne_of_live v h)]

/-- A new object exists. -/
theorem live_alloc_self (a : Arena α) (v : α) : (a.alloc v).2.Live (a.alloc v).1 :=
  Nat.lt_succ_self _

/-- What exists goes on existing when something is made. -/
theorem live_alloc_of_live {a : Arena α} (v : α) {r : Ref α} (h : a.Live r) :
    (a.alloc v).2.Live r :=
  Nat.lt_succ_of_lt h

/-- Given out after an allocation are the new reference and the older ones. -/
theorem live_alloc_iff (a : Arena α) (v : α) (r : Ref α) :
    (a.alloc v).2.Live r ↔ r = (a.alloc v).1 ∨ a.Live r := by
  have hi : r = (a.alloc v).1 ↔ r.index = a.size := Ref.index_eq_iff.symm
  rw [hi]
  exact Nat.lt_succ_iff_lt_or_eq.trans or_comm

end Arena
end LiveBuild
