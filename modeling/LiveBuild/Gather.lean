/-
# Gathering answers

Several searches in a row give one list, in the order of the searches.  The
first search that fails decides the whole.
-/

namespace LiveBuild

/-- An answer that is a value is that value. -/
theorem eq_ok_of_toOption_eq_some {α ε : Type} {x : Except ε α} {a : α} (h : x.toOption = some a) :
    x = .ok a := by
  cases x with
  | error e => cases h
  | ok b => exact congrArg Except.ok (Option.some.inj h)

/-- The answers of `f` on each item, one after the other, unless one of them fails. -/
def gather {α β ε : Type} (f : α → Except ε (List β)) : List α → Except ε (List β)
  | [] => .ok []
  | a :: as =>
    match f a with
    | .error e => .error e
    | .ok bs =>
      match gather f as with
      | .error e => .error e
      | .ok cs => .ok (bs ++ cs)

@[simp] theorem gather_nil {α β ε : Type} (f : α → Except ε (List β)) : gather f [] = .ok [] := rfl

@[simp] theorem gather_singleton {α β ε : Type} (f : α → Except ε (List β)) (a : α) :
    gather f [a] = f a := by
  rw [gather]
  cases f a with
  | error e => rfl
  | ok bs => simp

/-- **Gathering succeeds exactly if every item has a block,** and gives the blocks one after the
other. -/
theorem gather_eq_ok_iff {α β ε : Type} {f : α → Except ε (List β)} {as : List α} {bs : List β} :
    gather f as = .ok bs ↔
      ∃ blocks : List (List β), as.map f = blocks.map Except.ok ∧ bs = blocks.flatten := by
  induction as generalizing bs with
  | nil => simp [gather]
  | cons a as ih =>
    unfold gather
    constructor
    · intro h
      split at h
      · cases h
      · rename_i b hb
        split at h
        · cases h
        · rename_i cs hcs
          obtain ⟨blocks, hmap, rfl⟩ := ih.1 hcs
          cases h
          exact ⟨b :: blocks, by simp [hb, hmap], by simp⟩
    · rintro ⟨blocks, hmap, rfl⟩
      cases blocks with
      | nil => simp at hmap
      | cons b blocks =>
        rw [List.map_cons, List.map_cons, List.cons.injEq] at hmap
        rw [hmap.1, ih.2 ⟨blocks, hmap.2, rfl⟩]
        simp

/-- Gathering succeeds exactly if it does for the first item and for the rest. -/
theorem gather_cons_eq_ok_iff {α β ε : Type} {f : α → Except ε (List β)} {a : α} {as : List α}
    {cs : List β} :
    gather f (a :: as) = .ok cs ↔
      ∃ xs ys, f a = .ok xs ∧ gather f as = .ok ys ∧ cs = xs ++ ys := by
  rw [gather]
  cases f a with
  | error e => simp
  | ok xs =>
    cases gather f as with
    | error e => simp
    | ok ys => simp [eq_comm]

/-- Where every item succeeds, gathering is going through the list. -/
theorem gather_eq_flatMap {α β ε : Type} {f : α → Except ε (List β)} {g : α → List β} {as : List α}
    (h : ∀ a ∈ as, f a = .ok (g a)) : gather f as = .ok (as.flatMap g) := by
  induction as with
  | nil => rfl
  | cons a as ih =>
    rw [List.forall_mem_cons] at h
    rw [gather, h.1, ih h.2, List.flatMap_cons]

/-- Where every item gives one thing, gathering is going through the list one by one. -/
theorem gather_eq_map {α β ε : Type} {f : α → Except ε (List β)} {g : α → β} {as : List α}
    (h : ∀ a ∈ as, f a = .ok [g a]) : gather f as = .ok (as.map g) := by
  rw [gather_eq_flatMap h, List.map_eq_flatMap]

/-- Gathering over two lists is gathering over one and then over the other. -/
theorem gather_append_eq_ok_iff {α β ε : Type} {f : α → Except ε (List β)} {as bs : List α}
    {cs : List β} :
    gather f (as ++ bs) = .ok cs ↔
      ∃ xs ys, gather f as = .ok xs ∧ gather f bs = .ok ys ∧ cs = xs ++ ys := by
  induction as generalizing cs with
  | nil => simp [eq_comm]
  | cons a as ih =>
    simp only [List.cons_append, gather_cons_eq_ok_iff, ih]
    constructor
    · rintro ⟨xs, _, hxs, ⟨ys, zs, hys, hzs, rfl⟩, rfl⟩
      exact ⟨xs ++ ys, zs, ⟨xs, ys, hxs, hys, rfl⟩, hzs, (List.append_assoc ..).symm⟩
    · rintro ⟨_, zs, ⟨xs, ys, hxs, hys, rfl⟩, hzs, rfl⟩
      exact ⟨xs, ys ++ zs, hxs, ⟨ys, zs, hys, hzs, rfl⟩, List.append_assoc ..⟩

/-- **Two searches in a row can be made item by item:** each item is searched for what the second
search goes through. -/
theorem gather_gather_eq_ok_iff {α β γ ε : Type} {f : α → Except ε (List β)}
    {g : β → Except ε (List γ)} {as : List α} {cs : List γ} :
    (gather f as).bind (gather g) = .ok cs ↔
      gather (fun a => (f a).bind (gather g)) as = .ok cs := by
  induction as generalizing cs with
  | nil => rfl
  | cons a as ih =>
    rw [gather_cons_eq_ok_iff, gather]
    cases f a with
    | error e => simp [Except.bind]
    | ok bs =>
      cases hrest : gather f as with
      | error e =>
        rw [hrest] at ih
        simp only [Except.bind] at ih ⊢
        simp [← ih]
      | ok ds =>
        rw [hrest] at ih
        simp only [Except.bind] at ih ⊢
        simp only [gather_append_eq_ok_iff, ← ih]

/-- If no search fails, each of them has an answer. -/
theorem exists_of_gather {α β ε : Type} {f : α → Except ε (List β)} {as : List α} {bs : List β}
    (h : gather f as = .ok bs) {a : α} (ha : a ∈ as) : ∃ cs, f a = .ok cs := by
  obtain ⟨blocks, hmap, -⟩ := gather_eq_ok_iff.1 h
  have hfa : f a ∈ blocks.map Except.ok := hmap ▸ List.mem_map_of_mem ha
  obtain ⟨cs, -, hcs⟩ := List.mem_map.1 hfa
  exact ⟨cs, hcs.symm⟩

/-- **What is gathered is an answer exactly if no search fails.** -/
theorem exists_gather_iff {α β ε : Type} {f : α → Except ε (List β)} {as : List α} :
    (∃ bs, gather f as = .ok bs) ↔ ∀ a ∈ as, ∃ cs, f a = .ok cs := by
  refine ⟨fun ⟨bs, h⟩ a ha => exists_of_gather h ha, fun h => ?_⟩
  induction as with
  | nil => exact ⟨[], rfl⟩
  | cons a as ih =>
    rw [List.forall_mem_cons] at h
    obtain ⟨⟨xs, hxs⟩, hrest⟩ := h
    obtain ⟨ys, hys⟩ := ih hrest
    exact ⟨xs ++ ys, gather_cons_eq_ok_iff.2 ⟨xs, ys, hxs, hys, rfl⟩⟩

/-- **What is gathered is what the searches answer.** -/
theorem mem_gather {α β ε : Type} {f : α → Except ε (List β)} {as : List α} {bs : List β}
    (h : gather f as = .ok bs) {b : β} : b ∈ bs ↔ ∃ a ∈ as, ∃ cs, f a = .ok cs ∧ b ∈ cs := by
  obtain ⟨blocks, hmap, rfl⟩ := gather_eq_ok_iff.1 h
  rw [List.mem_flatten]
  constructor
  · rintro ⟨cs, hcs, hb⟩
    have hfa : .ok cs ∈ as.map f := hmap ▸ List.mem_map_of_mem hcs
    obtain ⟨a, ha, hfa⟩ := List.mem_map.1 hfa
    exact ⟨a, ha, cs, hfa, hb⟩
  · rintro ⟨a, ha, cs, hcs, hb⟩
    have hfa : f a ∈ blocks.map Except.ok := hmap ▸ List.mem_map_of_mem ha
    obtain ⟨ds, hds, he⟩ := List.mem_map.1 hfa
    rw [hcs, Except.ok.injEq] at he
    exact ⟨cs, he ▸ hds, hb⟩

end LiveBuild
