/-
# Tables

A table holds at most one value per key and remembers the order in which its
keys came.  Inserting under a key that is there replaces the value and keeps the
key's place; inserting under a new key appends it.

The view of a table is `find?`, and every operation has its equation there:

* `find?_insert`: the new value under the key inserted, the old ones elsewhere;
* `find?_filterKeys`: what is left answers as before, what is gone answers nothing;
* `find?_isSome_iff`: a key is found exactly if it is among `keys`;
* `find?_eq_some_iff`: what is found is what the entries say.

`sorted` lists the keys of a table in increasing order, each one once
(`pairwise_sorted`, `mem_sorted`).
-/

namespace LiveBuild

/-- Sorting by names that are all different puts each name before the later ones. -/
theorem pairwise_mergeSort_of_nodup {α : Type} (key : α → String) {as : List α}
    (h : (as.map key).Nodup) :
    (as.mergeSort fun a b => decide (key a ≤ key b)).Pairwise fun a b => key a < key b := by
  have hle : (as.mergeSort fun a b => decide (key a ≤ key b)).Pairwise
      fun a b => decide (key a ≤ key b) = true := by
    refine List.pairwise_mergeSort (fun a b c hab hbc => ?_) (fun a b => ?_) as
    · rw [decide_eq_true_eq] at *
      exact String.le_trans hab hbc
    · rw [Bool.or_eq_true, decide_eq_true_eq, decide_eq_true_eq]
      exact String.le_total _ _
  have hne : (as.mergeSort fun a b => decide (key a ≤ key b)).Pairwise
      fun a b => key a ≠ key b :=
    List.pairwise_map.1 (((List.mergeSort_perm as _).map key).nodup_iff.2 h)
  refine (hle.and hne).imp fun {a b} hab => ?_
  exact Std.lt_of_le_of_ne (of_decide_eq_true hab.1) hab.2

/-- Lists in increasing order of names are the same if they have the same entries. -/
theorem eq_of_pairwise_lt {α : Type} (key : α → String) {as bs : List α}
    (ha : as.Pairwise fun a b => key a < key b) (hb : bs.Pairwise fun a b => key a < key b)
    (hmem : ∀ a, a ∈ as ↔ a ∈ bs) : as = bs := by
  have hnodup : ∀ {cs : List α}, cs.Pairwise (fun a b => key a < key b) → cs.Nodup :=
    fun h => h.imp fun {a b} hab => by
      rintro rfl
      exact String.lt_irrefl _ hab
  refine List.Perm.eq_of_pairwise (fun a b _ _ hab hba => ?_) ha hb
    ((List.perm_ext_iff_of_nodup (hnodup ha) (hnodup hb)).2 hmem)
  exact absurd hba (String.lt_asymm hab)

/-- Values by key, each key at most once, in the order in which the keys came. -/
structure Table (κ α : Type) where
  entries : List (κ × α)
  nodup : (entries.map Prod.fst).Nodup

namespace Table

variable {κ α : Type}

/-- The table without entries. -/
def empty : Table κ α := ⟨[], List.nodup_nil⟩

instance : Inhabited (Table κ α) := ⟨empty⟩

/-- The keys, in the order in which they came. -/
def keys (t : Table κ α) : List κ := t.entries.map Prod.fst

/-- The values, in the order of their keys. -/
def values (t : Table κ α) : List α := t.entries.map Prod.snd

/-- How many entries there are. -/
def size (t : Table κ α) : Nat := t.entries.length

/-- What remains of the entries whose keys meet a condition. -/
def filterKeys (p : κ → Bool) (t : Table κ α) : Table κ α where
  entries := t.entries.filter fun e => p e.1
  nodup := t.nodup.sublist (List.filter_sublist.map _)

/-- Every key stands in a table once. -/
theorem nodup_keys (t : Table κ α) : t.keys.Nodup := t.nodup

variable [DecidableEq κ]

/-- The value under `k` in a list of entries. -/
def lookup (k : κ) : List (κ × α) → Option α
  | [] => none
  | (k', v) :: es => if k' = k then some v else lookup k es

/-- A list of entries with `v` under `k`. -/
def put (k : κ) (v : α) : List (κ × α) → List (κ × α)
  | [] => [(k, v)]
  | (k', v') :: es => if k' = k then (k, v) :: es else (k', v') :: put k v es

/-- **What is put under a key is found there,** and under every other key what was there. -/
theorem lookup_put (k k' : κ) (v : α) (es : List (κ × α)) :
    lookup k' (put k v es) = if k = k' then some v else lookup k' es := by
  induction es with
  | nil => simp [put, lookup]
  | cons e es ih =>
    obtain ⟨a, w⟩ := e
    by_cases h : a = k
    · subst h
      by_cases h' : a = k' <;> simp [put, lookup, h']
    · by_cases h' : a = k'
      · subst h'
        simp [put, lookup, h, Ne.symm h]
      · simp [put, lookup, h, h', ih]

/-- A key that is there keeps its place, and a new one comes last. -/
theorem keys_put (k : κ) (v : α) (es : List (κ × α)) :
    (put k v es).map Prod.fst =
      if k ∈ es.map Prod.fst then es.map Prod.fst else es.map Prod.fst ++ [k] := by
  induction es with
  | nil => simp [put]
  | cons e es ih =>
    obtain ⟨a, w⟩ := e
    by_cases h : a = k
    · simp [put, h]
    · have h' : ¬ k = a := fun e => h e.symm
      simp only [put, h, if_false, List.map_cons, ih, List.mem_cons, h', false_or]
      split <;> simp

/-- Putting keeps every key once. -/
theorem nodup_keys_put (k : κ) (v : α) {es : List (κ × α)} (h : (es.map Prod.fst).Nodup) :
    ((put k v es).map Prod.fst).Nodup := by
  rw [keys_put]
  split
  · exact h
  · rename_i hk
    rw [List.nodup_append]
    refine ⟨h, by simp, ?_⟩
    intro a ha b hb
    rw [List.mem_singleton] at hb
    subst hb
    exact fun hab => hk (hab ▸ ha)

/-- The table with `v` under `k`. -/
def insert (t : Table κ α) (k : κ) (v : α) : Table κ α :=
  ⟨put k v t.entries, nodup_keys_put k v t.nodup⟩

/-- The value under `k`. -/
def find? (t : Table κ α) (k : κ) : Option α := lookup k t.entries

/-- Whether there is a value under `k`. -/
def contains (t : Table κ α) (k : κ) : Bool := (t.find? k).isSome

@[simp] theorem find?_empty (k : κ) : (empty : Table κ α).find? k = none := rfl

/-- **What is inserted is found under its key,** and every other key is as it was. -/
theorem find?_insert (t : Table κ α) (k k' : κ) (v : α) :
    (t.insert k v).find? k' = if k = k' then some v else t.find? k' :=
  lookup_put k k' v t.entries

@[simp] theorem find?_insert_self (t : Table κ α) (k : κ) (v : α) :
    (t.insert k v).find? k = some v := by
  simp [find?_insert]

/-- Inserting leaves every other key as it is. -/
theorem find?_insert_of_ne (t : Table κ α) {k k' : κ} (v : α) (h : k ≠ k') :
    (t.insert k v).find? k' = t.find? k' := by
  simp [find?_insert, h]

/-- Something is found under a key exactly if the key is there. -/
theorem lookup_isSome_iff (k : κ) (es : List (κ × α)) :
    (lookup k es).isSome ↔ k ∈ es.map Prod.fst := by
  induction es with
  | nil => simp [lookup]
  | cons e es ih =>
    obtain ⟨a, w⟩ := e
    by_cases h : a = k
    · simp [lookup, h]
    · have h' : ¬ k = a := fun e => h e.symm
      simp only [lookup, h, if_false, ih, List.map_cons, List.mem_cons, h', false_or]

/-- **The keys of a table are those under which something is found.** -/
theorem find?_isSome_iff (t : Table κ α) (k : κ) : (t.find? k).isSome ↔ k ∈ t.keys :=
  lookup_isSome_iff k t.entries

/-- Inserting leaves the keys in their order, and a new one comes last. -/
theorem keys_insert (t : Table κ α) (k : κ) (v : α) :
    (t.insert k v).keys = if k ∈ t.keys then t.keys else t.keys ++ [k] :=
  keys_put k v t.entries

/-- Nothing is found under a key exactly if the key is not there. -/
theorem find?_eq_none_iff (t : Table κ α) (k : κ) : t.find? k = none ↔ k ∉ t.keys := by
  rw [← find?_isSome_iff, Bool.not_eq_true, Option.isSome_eq_false_iff, Option.isNone_iff_eq_none]

/-- Where every key stands once, what is found under a key is what stands with it. -/
theorem lookup_eq_some_iff {k : κ} {v : α} {es : List (κ × α)} (h : (es.map Prod.fst).Nodup) :
    lookup k es = some v ↔ (k, v) ∈ es := by
  induction es with
  | nil => simp [lookup]
  | cons e es ih =>
    obtain ⟨a, w⟩ := e
    rw [List.map_cons, List.nodup_cons] at h
    by_cases ha : a = k
    · subst ha
      have hnot : (a, v) ∉ es := fun hin => h.1 (List.mem_map.2 ⟨_, hin, rfl⟩)
      simp [lookup, hnot, eq_comm]
    · have ha' : ¬ k = a := fun e => ha e.symm
      simp [lookup, ha, ha', ih h.2]

/-- **What is found is what the entries say.** -/
theorem find?_eq_some_iff (t : Table κ α) (k : κ) (v : α) :
    t.find? k = some v ↔ (k, v) ∈ t.entries :=
  lookup_eq_some_iff t.nodup

/-- A new key is put at the end. -/
theorem put_of_notMem {k : κ} (v : α) {es : List (κ × α)} (h : k ∉ es.map Prod.fst) :
    put k v es = es ++ [(k, v)] := by
  induction es with
  | nil => rfl
  | cons e es ih =>
    obtain ⟨a, w⟩ := e
    rw [List.map_cons, List.mem_cons, not_or] at h
    have ha : ¬ a = k := fun e => h.1 e.symm
    rw [put, if_neg ha, ih h.2, List.cons_append]

/-- A new key comes last, with its value. -/
theorem entries_insert_of_new {t : Table κ α} {k : κ} (v : α) (h : t.find? k = none) :
    (t.insert k v).entries = t.entries ++ [(k, v)] :=
  put_of_notMem v ((t.find?_eq_none_iff k).1 h)

/-- Leaving keys out leaves the others as they are. -/
theorem lookup_filter (p : κ → Bool) (k : κ) (es : List (κ × α)) :
    lookup k (es.filter fun e => p e.1) = if p k then lookup k es else none := by
  induction es with
  | nil => simp [lookup]
  | cons e es ih =>
    obtain ⟨a, w⟩ := e
    by_cases hp : p a
    · by_cases h : a = k
      · subst h; simp [lookup, hp]
      · simp [lookup, hp, h, ih]
    · by_cases h : a = k
      · subst h; simp [hp, ih]
      · simp [lookup, hp, h, ih]

/-- **A table with fewer keys** has what it had under those that are left. -/
theorem find?_filterKeys (t : Table κ α) (p : κ → Bool) (k : κ) :
    (t.filterKeys p).find? k = if p k then t.find? k else none :=
  lookup_filter p k t.entries

/-- The keys of a table of names, in increasing order. -/
def sorted (t : Table String α) : List String := t.keys.mergeSort (fun a b => decide (a ≤ b))

theorem sorted_perm (t : Table String α) : t.sorted.Perm t.keys := List.mergeSort_perm _ _

/-- Sorting loses no key. -/
theorem mem_sorted (t : Table String α) (k : String) : k ∈ t.sorted ↔ k ∈ t.keys :=
  t.sorted_perm.mem_iff

/-- The sorted keys increase strictly, as no key stands twice. -/
theorem pairwise_sorted (t : Table String α) : t.sorted.Pairwise (· < ·) :=
  pairwise_mergeSort_of_nodup id (by rw [List.map_id]; exact t.nodup_keys)

end Table
end LiveBuild
