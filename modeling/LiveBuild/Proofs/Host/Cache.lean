/-
# What a class path remembers

A class path is asked for names while files come, change and go.  Of its entries the first one
that does not miss decides, and the later ones make no difference (`read?_decided`).

A run (`Run`) is any sequence of lookups and reads, with any changes in between to everything
but what the class path remembers.  It is written down with every answer, the files at that
moment, and the calls of the materializer.  What is remembered are the handles that were answered
(`Remembers.step`), so what was answered once is answered ever after, and everything else is looked
for again (`find?_of_run`).
-/

import LiveBuild.FileSystem.Edit
import LiveBuild.Proofs.Host.ClassPath

namespace LiveBuild
namespace ClassPath

variable {c : ClassPath} {name : String} {s t : Store} {bytes : Bytes}

/-! ### The first entry that does not miss -/

/-- Where every entry misses, so does the class path. -/
theorem firstHit_of_missed {fs : FileSystem} {relative : String} {entries : List ClassPathEntry}
    (h : ∀ e ∈ entries, e.read? fs relative = .ok none) : firstHit fs relative entries = .ok none := by
  induction entries with
  | nil => rfl
  | cons e entries ih =>
    rw [List.forall_mem_cons] at h
    rw [firstHit, h.1, ih h.2]

/-- **The first entry that does not miss decides.** -/
theorem firstHit_of_hit {fs : FileSystem} {relative : String} {before after : List ClassPathEntry}
    {e : ClassPathEntry} (hmiss : ∀ x ∈ before, x.read? fs relative = .ok none)
    (hhit : e.read? fs relative ≠ .ok none) :
    firstHit fs relative (before ++ e :: after) = e.read? fs relative := by
  induction before with
  | nil =>
    rw [List.nil_append, firstHit]
    split
    · rename_i hnone
      exact absurd hnone hhit
    · rfl
  | cons x before ih =>
    rw [List.forall_mem_cons] at hmiss
    rw [List.cons_append, firstHit, hmiss.1, ih hmiss.2]

/-- Entries miss, or one of them is the first that does not. -/
theorem missed_or_hit (fs : FileSystem) (relative : String) (entries : List ClassPathEntry) :
    (∀ e ∈ entries, e.read? fs relative = .ok none) ∨
      ∃ before e after, entries = before ++ e :: after ∧
        (∀ x ∈ before, x.read? fs relative = .ok none) ∧ e.read? fs relative ≠ .ok none := by
  induction entries with
  | nil => exact .inl fun _ h => absurd h List.not_mem_nil
  | cons x entries ih =>
    by_cases hx : x.read? fs relative = .ok none
    · rcases ih with hmiss | ⟨before, e, after, rfl, hmiss, hhit⟩
      · exact .inl (List.forall_mem_cons.2 ⟨hx, hmiss⟩)
      · exact .inr ⟨x :: before, e, after, rfl, List.forall_mem_cons.2 ⟨hx, hmiss⟩, hhit⟩
    · exact .inr ⟨[], x, entries, rfl, fun _ h => absurd h List.not_mem_nil, hx⟩

/-- **What is read is decided by the first entry that does not miss,** in every file system in
which that entry and those before it answer the same. -/
theorem read?_decided (c : ClassPath) (fs : FileSystem) (name : String) :
    ((∀ e ∈ c.entries, e.read? fs (c.relativePath name) = .ok none) ∧ c.read? fs name = .ok none) ∨
      ∃ before e after, c.entries = before ++ e :: after ∧
        (∀ x ∈ before, x.read? fs (c.relativePath name) = .ok none) ∧
        e.read? fs (c.relativePath name) ≠ .ok none ∧
        ∀ fs' : FileSystem,
          (∀ x ∈ before ++ [e],
            x.read? fs' (c.relativePath name) = x.read? fs (c.relativePath name)) →
          c.read? fs' name = e.read? fs (c.relativePath name) := by
  rcases missed_or_hit fs (c.relativePath name) c.entries with
    hmiss | ⟨before, e, after, hentries, hmiss, hhit⟩
  · exact .inl ⟨hmiss, firstHit_of_missed hmiss⟩
  · refine .inr ⟨before, e, after, hentries, hmiss, hhit, fun fs' hsame => ?_⟩
    have he : e.read? fs' (c.relativePath name) = e.read? fs (c.relativePath name) :=
      hsame e (List.mem_append_right _ (List.mem_singleton_self e))
    have hmiss' : ∀ x ∈ before, x.read? fs' (c.relativePath name) = .ok none := fun x hx =>
      (hsame x (List.mem_append_left _ hx)).trans (hmiss x hx)
    have hhit' : e.read? fs' (c.relativePath name) ≠ .ok none := by
      rw [he]
      exact hhit
    rw [read?, hentries, firstHit_of_hit hmiss' hhit', he]

/-! ### Runs -/

/-- The calls of materializers that a lookup makes. -/
def callsOf (c : ClassPath) (name : String) (s : Store) : List Attempt :=
  ((c.find? name).attempt s).2.attempts.drop s.attempts.length

/-- One question to a class path: the files at that moment, what was called, and the answer. -/
inductive Question where
  | find (name : String) (files : FileSystem) (calls : List Attempt)
    (answer : Except Error (Option (Ref LoadedArtifact)))
  | read (name : String) (files : FileSystem) (answer : Except Error (Option Bytes))

/-- The calls of materializers that a question led to. -/
def Question.calls : Question → List Attempt
  | .find _ _ calls _ => calls
  | .read .. => []

/-- One question, and the store that it leaves behind. -/
inductive Step (c : ClassPath) (s : Store) : Question → Store → Prop
  | find (name : String) :
    Step c s (.find name s.files (c.callsOf name s) ((c.find? name).attempt s).1)
      ((c.find? name).attempt s).2
  | read (name : String) : Step c s (.read name s.files (c.read? s.files name)) s

/-- Any questions, one after the other.  In between anything may change but what the class path
remembers, files above all. -/
inductive Run (c : ClassPath) (s₀ : Store) : List Question → Store → Prop
  | start : Run c s₀ [] s₀
  | snoc {log : List Question} {q : Question} {s t : Store} (h : Run c s₀ log s)
    (hs : Step c s q t) : Run c s₀ (log ++ [q]) t
  | meanwhile {log : List Question} {s t : Store} (h : Run c s₀ log s)
    (hst : t.caches.get c.cache = s.caches.get c.cache) : Run c s₀ log t

/-- A lookup of the name was answered with the handle. -/
def Answered (log : List Question) (name : String) (h : Ref LoadedArtifact) : Prop :=
  ∃ files calls, .find name files calls (.ok (some h)) ∈ log

/-- The calls for a name that succeeded. -/
def successes (log : List Question) (name : String) : List Attempt :=
  (log.flatMap Question.calls).filter fun a => a.succeeded ∧ a.call.name = name

section Log

variable {log : List Question} {n : String} {h : Ref LoadedArtifact}

/-- A name was answered with a handle before the last question or by it. -/
theorem answered_find_iff {files : FileSystem} {calls : List Attempt}
    {answer : Except Error (Option (Ref LoadedArtifact))} :
    Answered (log ++ [.find name files calls answer]) n h ↔
      Answered log n h ∨ name = n ∧ answer = .ok (some h) := by
  simp only [Answered, List.mem_append, List.mem_singleton, Question.find.injEq, exists_or]
  refine or_congr_right ?_
  constructor
  · rintro ⟨files, calls, rfl, -, -, rfl⟩
    exact ⟨rfl, rfl⟩
  · rintro ⟨rfl, rfl⟩
    exact ⟨files, calls, rfl, rfl, rfl, rfl⟩

/-- Reading answers no name with a handle. -/
theorem answered_read_iff {files : FileSystem} {answer : Except Error (Option Bytes)} :
    Answered (log ++ [.read name files answer]) n h ↔ Answered log n h := by
  simp [Answered]

/-- The successes for a name are those before the last question and those of it. -/
theorem successes_concat (log : List Question) (q : Question) (n : String) :
    successes (log ++ [q]) n =
      successes log n ++ q.calls.filter fun a => a.succeeded ∧ a.call.name = n := by
  rw [successes, List.flatMap_append, List.filter_append, List.flatMap_singleton]
  rfl

end Log

/-- What is remembered are the handles that were answered, and each was made once. -/
structure Remembers (log : List Question) (c : ClassPath) (s : Store) : Prop where
  find?_iff : ∀ n h, (s.caches.get c.cache).find? n = some h ↔ Answered log n h
  once : ∀ n, (successes log n).length = ((s.caches.get c.cache).find? n).toList.length

namespace Remembers

variable {log : List Question}

/-- A class path with an empty cache remembers nothing, as it was asked for nothing. -/
theorem start (hnew : s.caches.get c.cache = Table.empty) : Remembers [] c s := by
  refine ⟨fun n h => ?_, fun n => ?_⟩
  · rw [hnew]
    simp [Answered]
  · rw [hnew]
    rfl

variable (hlog : Remembers log c s)
include hlog

/-- As long as its cache is as it was, a class path remembers what it remembered. -/
theorem of_cache_eq (hst : t.caches.get c.cache = s.caches.get c.cache) : Remembers log c t :=
  ⟨fun n h => hst ▸ hlog.find?_iff n h, fun n => hst ▸ hlog.once n⟩

/-- **A question that changes nothing of what is remembered:** if it is a lookup it answers no
handle, or the one that is remembered, and no call succeeds. -/
theorem unchanged {q : Question} (hst : t.caches.get c.cache = s.caches.get c.cache)
    (hanswer : ∀ n h, Answered (log ++ [q]) n h ↔ Answered log n h)
    (hcalls : ∀ a ∈ q.calls, a.succeeded = false) : Remembers (log ++ [q]) c t := by
  refine ⟨fun n h => ?_, fun n => ?_⟩
  · rw [hst, hlog.find?_iff, hanswer]
  · have hnone : q.calls.filter (fun a => a.succeeded ∧ a.call.name = n) = [] := by
      refine List.filter_eq_nil_iff.2 fun a ha => ?_
      rw [hcalls a ha]
      simp
    rw [successes_concat, hnone, List.append_nil, hst, hlog.once]

/-- **A handle is answered for the first time.** -/
theorem remember {l : LoadedArtifact} {files : FileSystem}
    (hnone : (s.caches.get c.cache).find? name = none) :
    Remembers (log ++ [.find name files [⟨c.materializer.id, ⟨name, .compiled, bytes⟩, true⟩]
      (.ok (some (s.loaded.alloc l).1))]) c (c.made name bytes l s) := by
  have hcache : ((c.made name bytes l s).caches.get c.cache) =
      (s.caches.get c.cache).insert name (s.loaded.alloc l).1 := Arena.get_modify_self _ _ _
  refine ⟨fun n h => ?_, fun n => ?_⟩
  · rw [hcache, answered_find_iff, ← hlog.find?_iff, Table.find?_insert]
    by_cases hn : name = n
    · subst hn
      simp [hnone, eq_comm]
    · simp [hn]
  · rw [successes_concat, List.length_append, hlog.once, hcache, Table.find?_insert]
    by_cases hn : name = n
    · subst hn
      simp [hnone, Question.calls]
    · simp [hn, Question.calls]

/-- **Every question keeps what is remembered in step with what was answered.** -/
theorem step {q : Question} (hs : Step c s q t) : Remembers (log ++ [q]) c t := by
  cases hs with
  | read name =>
    exact hlog.unchanged rfl (fun n h => answered_read_iff) fun a ha => absurd ha List.not_mem_nil
  | find name =>
    rw [callsOf]
    rcases c.find?_cases name s with ⟨h, hh, hx⟩ | ⟨hnone, ⟨e, -, hx⟩ | ⟨-, hx⟩ | ⟨bytes, -, hrest⟩⟩
    · rw [hx, List.drop_length]
      refine hlog.unchanged rfl (fun n a => ?_) fun a ha => absurd ha List.not_mem_nil
      rw [answered_find_iff, or_iff_left_iff_imp]
      rintro ⟨rfl, ha⟩
      cases ha
      exact (hlog.find?_iff name h).1 hh
    · rw [hx, List.drop_length]
      refine hlog.unchanged rfl (fun n a => ?_) fun a ha => absurd ha List.not_mem_nil
      simp [answered_find_iff]
    · rw [hx, List.drop_length]
      refine hlog.unchanged rfl (fun n a => ?_) fun a ha => absurd ha List.not_mem_nil
      simp [answered_find_iff]
    · rcases hrest with ⟨e, -, hx⟩ | ⟨l, -, hx⟩
      · rw [hx, tried, List.drop_left]
        refine hlog.unchanged rfl (fun n a => ?_) fun a ha => ?_
        · simp [answered_find_iff]
        · rw [List.mem_singleton.1 ha]
      · rw [hx]
        have hcalls : (c.made name bytes l s).attempts.drop s.attempts.length =
            [⟨c.materializer.id, ⟨name, .compiled, bytes⟩, true⟩] := List.drop_left
        rw [hcalls]
        exact hlog.remember hnone

end Remembers

/-- A lookup with a known answer. -/
theorem Run.find {s₀ : Store} {log : List Question}
    {answer : Except Error (Option (Ref LoadedArtifact))} (h : c.Run s₀ log s)
    (hx : (c.find? name).attempt s = (answer, t)) :
    c.Run s₀ (log ++ [.find name s.files (c.callsOf name s) answer]) t := by
  have hs : c.Step s (.find name s.files (c.callsOf name s) ((c.find? name).attempt s).1)
      ((c.find? name).attempt s).2 := .find name
  rw [hx] at hs
  exact h.snoc hs

/-- **At every moment of a run a class path remembers what it has answered.** -/
theorem Run.remembers {s₀ : Store} {log : List Question}
    (hnew : s₀.caches.get c.cache = Table.empty) (h : c.Run s₀ log s) : Remembers log c s := by
  induction h with
  | start => exact .start hnew
  | snoc _ hs ih => exact ih.step hs
  | meanwhile _ hst ih => exact ih.of_cache_eq hst

/-- **How a class path answers while files change.**  It begins remembering nothing, and is asked
any questions.

* Once a lookup of a name was answered with a handle, it is answered with that handle whatever
  has become of the files, and nothing is called.
* As long as no lookup of the name was, a lookup reads the name as a reader would at that
  moment: an error is its answer, and so is a miss, and neither leaves anything behind.  Bytes
  are given to the materializer, once: its error is the answer, and what it makes is the handle.
* What is read is decided by the first entry that does not miss, be it by bytes or by an error;
  the entries after it make no difference.
* Of all calls for a name one succeeds at most. -/
theorem find?_of_run {s₀ : Store} {log : List Question}
    (hnew : s₀.caches.get c.cache = Table.empty) (h : c.Run s₀ log s) (name : String) :
    (∀ h, Answered log name h →
      ∀ t : Store, t.caches.get c.cache = s.caches.get c.cache →
        (c.find? name).attempt t = (.ok (some h), t)) ∧
    ((∀ h, ¬ Answered log name h) →
      (∀ e, c.read? s.files name = .error e → (c.find? name).attempt s = (.error e, s)) ∧
      (c.read? s.files name = .ok none → (c.find? name).attempt s = (.ok none, s)) ∧
      ∀ bytes, c.read? s.files name = .ok (some bytes) →
        (∀ e, c.answer name bytes s = .error e →
          (c.find? name).attempt s = (.error e, c.tried name bytes false s)) ∧
        ∀ l, c.answer name bytes s = .ok l →
          (c.find? name).attempt s = (.ok (some (s.loaded.alloc l).1), c.made name bytes l s)) ∧
    (∀ fs : FileSystem,
      ((∀ e ∈ c.entries, e.read? fs (c.relativePath name) = .ok none) ∧
        c.read? fs name = .ok none) ∨
      ∃ before e after, c.entries = before ++ e :: after ∧
        (∀ x ∈ before, x.read? fs (c.relativePath name) = .ok none) ∧
        e.read? fs (c.relativePath name) ≠ .ok none ∧
        ∀ fs' : FileSystem,
          (∀ x ∈ before ++ [e],
            x.read? fs' (c.relativePath name) = x.read? fs (c.relativePath name)) →
          c.read? fs' name = e.read? fs (c.relativePath name)) ∧
    (successes log name).length ≤ 1 := by
  have hlog := h.remembers hnew
  refine ⟨fun a ha t ht => ?_, fun hno => ?_, fun fs => c.read?_decided fs name, ?_⟩
  · exact find?_of_remembered (by rw [ht]; exact (hlog.find?_iff name a).2 ha)
  · have hnone : (s.caches.get c.cache).find? name = none := by
      rw [Option.eq_none_iff_forall_ne_some]
      exact fun a ha => hno a ((hlog.find?_iff name a).1 ha)
    exact ⟨fun e => find?_of_unread hnone, find?_of_missed hnone,
      fun bytes hread => ⟨fun e => find?_of_refused hnone hread, fun l => find?_of_made hnone hread⟩⟩
  · rw [hlog.once]
    exact Option.length_toList_le

/-- A class path of two directories, with a materializer that fails once for the name A. -/
def flaky : ClassPath :=
  ⟨[.directory ⟨"old"⟩, .directory ⟨"new"⟩], ".code",
    .failing 0 (Table.empty.insert "A" 1), ⟨0⟩⟩

/-- A store with an empty cache and a file for the name A in the second directory. -/
def withA : Store :=
  { Store.empty.newCache.2 with files := FileSystem.empty.write ⟨"new/A.code"⟩ [1] }

/-- The store after the first lookup of A. -/
def refusedOnce : Store := flaky.tried "A" [1] false withA

/-- The store after the second one. -/
def madeOnce : Store := flaky.made "A" [1] (.ofImage "A" .compiled [1]) refusedOnce

/-- **A name is looked up three times.**  First the materializer fails, and nothing is remembered.
Then it makes something, and that is answered again, whatever files there are by then. -/
theorem find?_of_run_flaky :
    (flaky.find? "A").attempt withA = (.error (.materialization "A" "scripted"), refusedOnce) ∧
      (flaky.find? "A").attempt refusedOnce = (.ok (some ⟨0⟩), madeOnce) ∧
      ∀ files : FileSystem,
        (flaky.find? "A").attempt { madeOnce with files } =
          (.ok (some ⟨0⟩), { madeOnce with files }) := by
  have hnew : withA.caches.get flaky.cache = Table.empty := Arena.get_alloc_self _ _
  have hread : flaky.read? withA.files "A" = .ok (some [1]) :=
    eq_ok_of_toOption_eq_some (by decide +kernel)
  have hread' : flaky.read? refusedOnce.files "A" = .ok (some [1]) := by
    rw [refusedOnce, files_tried, hread]
  have hrefused : flaky.answer "A" [1] withA = .error (.materialization "A" "scripted") := rfl
  have hmade : flaky.answer "A" [1] refusedOnce = .ok (.ofImage "A" .compiled [1]) := rfl
  have hfirst : (flaky.find? "A").attempt withA =
      (.error (.materialization "A" "scripted"), refusedOnce) :=
    (((find?_of_run hnew .start "A").2.1 (by simp [Answered])).2.2 [1] hread).1 _ hrefused
  have honce := Run.find .start hfirst
  have hhandle : (refusedOnce.loaded.alloc (.ofImage "A" .compiled [1])).1 = ⟨0⟩ := rfl
  have hsecond : (flaky.find? "A").attempt refusedOnce = (.ok (some ⟨0⟩), madeOnce) := by
    rw [((find?_of_run hnew honce "A").2.1 (by simp [Answered])).2.2 [1] hread' |>.2 _ hmade, hhandle,
      madeOnce]
  have htwice := Run.find honce hsecond
  refine ⟨hfirst, hsecond, fun files => ?_⟩
  exact (find?_of_run hnew htwice "A").1 ⟨0⟩ (answered_find_iff.2 (.inr ⟨rfl, rfl⟩)) _ rfl

end ClassPath
end LiveBuild
