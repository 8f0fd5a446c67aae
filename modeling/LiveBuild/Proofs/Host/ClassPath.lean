/-
# What a class path does to a store

A class path answers a lookup from its cache or by loading.  Five things can happen:

| remembered | entries | materializer | answer | remembered afterwards |
| --- | --- | --- | --- | --- |
| a handle | not read | not called | that handle | that handle |
| nothing | an error | not called | that error | nothing |
| nothing | all miss | not called | nothing | nothing |
| nothing | bytes | refuses | its error | nothing |
| nothing | bytes | makes something | a new handle | that handle |

So all it changes is its cache, the records of its materializer, and what is loaded: there may
be one object more (`store_find?`).
-/

import LiveBuild.ClassPath

namespace LiveBuild
namespace ClassPath

variable {c : ClassPath} {name : String} {s : Store} {bytes : Bytes}

/-- The store with one more call of the class path's materializer in its records. -/
def tried (c : ClassPath) (name : String) (bytes : Bytes) (succeeded : Bool) (s : Store) : Store :=
  { s with
    attempts := s.attempts ++ [⟨c.materializer.id, ⟨name, .compiled, bytes⟩, succeeded⟩] }

@[simp] theorem files_tried (c : ClassPath) (name : String) (bytes : Bytes) (succeeded : Bool)
    (s : Store) : (c.tried name bytes succeeded s).files = s.files := rfl

/-- The store in which something was made of the bytes of a name, and is remembered. -/
def made (c : ClassPath) (name : String) (bytes : Bytes) (l : LoadedArtifact) (s : Store) : Store :=
  { c.tried name bytes true s with
    loaded := (s.loaded.alloc l).2
    caches := s.caches.modify c.cache fun t => t.insert name (s.loaded.alloc l).1 }

/-- What the class path's materializer answers if it is called now. -/
def answer (c : ClassPath) (name : String) (bytes : Bytes) (s : Store) : Except Error LoadedArtifact :=
  c.materializer.answer (c.materializer.callsIn s) ⟨name, .compiled, bytes⟩

/-- A name that is remembered is answered from the cache, and nothing happens. -/
theorem find?_of_remembered {h : Ref LoadedArtifact} (hh : (s.caches.get c.cache).find? name = some h) :
    (c.find? name).attempt s = (.ok (some h), s) := by
  simp only [Action.attempt, find?, hh]

section Unremembered

variable (hnone : (s.caches.get c.cache).find? name = none)
include hnone

/-- A name that cannot be read is answered with that error, and nothing happens. -/
theorem find?_of_unread {e : Error} (hread : c.read? s.files name = .error e) :
    (c.find? name).attempt s = (.error e, s) := by
  simp only [Action.attempt, find?, hnone, hread]

/-- A name that no entry has is not found, and nothing happens. -/
theorem find?_of_missed (hread : c.read? s.files name = .ok none) :
    (c.find? name).attempt s = (.ok none, s) := by
  simp only [Action.attempt, find?, hnone, hread]

/-- What the materializer refuses is answered with its error, and the call is written down. -/
theorem find?_of_refused {e : Error} (hread : c.read? s.files name = .ok (some bytes))
    (hanswer : c.answer name bytes s = .error e) :
    (c.find? name).attempt s = (.error e, c.tried name bytes false s) := by
  rw [answer] at hanswer
  simp only [Action.attempt, find?, hnone, hread, Materializer.load, Materializer.run, hanswer]
  rfl

/-- What the materializer makes is loaded, remembered and answered. -/
theorem find?_of_made {l : LoadedArtifact} (hread : c.read? s.files name = .ok (some bytes))
    (hanswer : c.answer name bytes s = .ok l) :
    (c.find? name).attempt s = (.ok (some (s.loaded.alloc l).1), c.made name bytes l s) := by
  rw [answer] at hanswer
  simp only [Action.attempt, find?, hnone, hread, Materializer.load, Materializer.run, hanswer]
  rfl

end Unremembered

/-- **Five things can happen when a name is looked up.** -/
theorem find?_cases (c : ClassPath) (name : String) (s : Store) :
    (∃ h, (s.caches.get c.cache).find? name = some h ∧
        (c.find? name).attempt s = (.ok (some h), s)) ∨
      (s.caches.get c.cache).find? name = none ∧
        ((∃ e, c.read? s.files name = .error e ∧ (c.find? name).attempt s = (.error e, s)) ∨
          (c.read? s.files name = .ok none ∧ (c.find? name).attempt s = (.ok none, s)) ∨
          ∃ bytes, c.read? s.files name = .ok (some bytes) ∧
            ((∃ e, c.answer name bytes s = .error e ∧
                (c.find? name).attempt s = (.error e, c.tried name bytes false s)) ∨
              ∃ l, c.answer name bytes s = .ok l ∧
                (c.find? name).attempt s =
                  (.ok (some (s.loaded.alloc l).1), c.made name bytes l s))) := by
  cases hnone : (s.caches.get c.cache).find? name with
  | some h => exact .inl ⟨h, rfl, find?_of_remembered hnone⟩
  | none =>
    refine .inr ⟨rfl, ?_⟩
    cases hread : c.read? s.files name with
    | error e => exact .inl ⟨e, rfl, find?_of_unread hnone hread⟩
    | ok found =>
      cases found with
      | none => exact .inr (.inl ⟨rfl, find?_of_missed hnone hread⟩)
      | some bytes =>
        refine .inr (.inr ⟨bytes, rfl, ?_⟩)
        cases hanswer : c.answer name bytes s with
        | error e => exact .inl ⟨e, rfl, find?_of_refused hnone hread hanswer⟩
        | ok l => exact .inr ⟨l, rfl, find?_of_made hnone hread hanswer⟩

/-- **What a lookup in a class path changes:** the cache, the records of calls, and there may
be one more loaded artifact. -/
theorem store_find? (c : ClassPath) (name : String) (s : Store) :
    ∃ attempts caches loaded,
      ((c.find? name).attempt s).2 = { s with attempts, caches, loaded } ∧
        (loaded = s.loaded ∨ ∃ l, loaded = (s.loaded.alloc l).2) := by
  rcases c.find?_cases name s with
    ⟨h, -, hx⟩ | ⟨-, ⟨e, -, hx⟩ | ⟨-, hx⟩ | ⟨bytes, -, ⟨e, -, hx⟩ | ⟨l, -, hx⟩⟩⟩ <;> rw [hx]
  · exact ⟨s.attempts, s.caches, s.loaded, rfl, .inl rfl⟩
  · exact ⟨s.attempts, s.caches, s.loaded, rfl, .inl rfl⟩
  · exact ⟨s.attempts, s.caches, s.loaded, rfl, .inl rfl⟩
  · exact ⟨_, s.caches, s.loaded, rfl, .inl rfl⟩
  · exact ⟨_, _, _, rfl, .inr ⟨l, rfl⟩⟩

end ClassPath
end LiveBuild
