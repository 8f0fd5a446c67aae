/-
# The order of units

The units of a round are compiled one after the other, and each of them works on what all
have in common: the namespace of the loader, the tables of the file manager, what is reported,
and the verdict.  What a unit does to them is its own:

| unit | process | `result` | `block` | output |
| --- | --- | --- | --- | --- |
| was never written | | nothing | one error | none |
| has a text | cannot be started | an error | empty | none |
| has a text | fails | nothing | what it said, and an error if that was none | none |
| has a text | ends well | what it wrote | what it said | that, under its name |

The process is a function of its arguments and its input, so this does not depend on what was
compiled before (`run_attempt_compileUnit`).  A list of units with different names comes to all
of it together: its blocks one after the other, its outputs side by side (`Totals`), and the
verdict that their results give (`run_compile_eq`).  So another order gives the same verdict, the
same outputs, and the same blocks in that order (`compile_perm`).
-/

import LiveBuild.Proofs.Compiler.Owners
import LiveBuild.Proofs.Compiler.Sources
import LiveBuild.Proofs.Toolchain.Rounds

namespace LiveBuild
namespace Rustc

/-- How the process of a unit ends, if the unit has a text. -/
def ran? (r : Rustc) (options : List String) (s : Store) (u : SourceUnit) :
    Option (Except OsError ProcessOutput) :=
  u.content.map fun text => (s.execute r.path (r.arguments u.name options) (Text.Utf8.encode text)).1

/-- What a unit comes to: what its process writes, nothing, or an error. -/
def result (r : Rustc) (options : List String) (s : Store) (u : SourceUnit) :
    Except Error (Option Bytes) :=
  match r.ran? options s u with
  | none => .ok none
  | some (.error e) => .error (.toolchain (.cannotSpawn e))
  | some (.ok output) => .ok (if output.status.isSuccess then some output.stdout else none)

/-- What a unit comes to, if it comes to something. -/
def output? (r : Rustc) (options : List String) (s : Store) (u : SourceUnit) : Option Bytes :=
  (r.result options s u).toOption.join

/-- The error about a unit that was never written. -/
def unwritten (unit : String) : Diagnostic := .error unit "source was requested but never written"

/-- What is reported about a unit. -/
def block (r : Rustc) (options : List String) (s : Store) (u : SourceUnit) : List Diagnostic :=
  match r.ran? options s u with
  | none => [unwritten u.name]
  | some (.error _) => []
  | some (.ok output) => said u.name output

/-- Whether a unit was accepted, as a round is told. -/
def answer (r : Rustc) (options : List String) (s : Store) (u : SourceUnit) : Except Error Bool :=
  (r.result options s u).map Option.isSome

variable {r : Rustc} {options : List String} {m : FileManager} {s t : Store} {b : BuildState}
  {u : Ref SourceUnit}

/-! ### One unit -/

/-- How the process of a unit ends depends on the programs in the file system alone. -/
theorem ran?_congr (r : Rustc) (options : List String) (h : t.files = s.files) (u : SourceUnit) :
    r.ran? options t u = r.ran? options s u := by
  rw [ran?, ran?]
  exact congrArg (u.content.map ·) (funext fun text => Store.execute_congr h _ _ _)

/-- Whatever is reported about a unit says so. -/
theorem source_of_mem_block {u : SourceUnit} {d : Diagnostic} (h : d ∈ r.block options s u) :
    d.source = some u.name := by
  rw [block] at h
  split at h
  · rw [List.mem_singleton.1 h]
    rfl
  · cases h
  · rename_i output _
    rcases List.mem_append.1 h with h | h
    · exact CompilerOutput.source_of_mem_parse h
    · split at h
      · rw [List.mem_singleton.1 h]
        rfl
      · cases h

/-- A unit that comes to nothing touches no output. -/
theorem untouched_of_none {v : SourceUnit} (hnone : r.output? options s v = none) {t' : Store}
    (ht : m.Touches [] t t') :
    m.Touches (if (r.output? options s v).isSome then [v.name] else []) t t' ∧
      ∀ bytes, r.output? options s v = some bytes → ∃ a, m.Made v.name bytes a t' := by
  rw [hnone]
  exact ⟨ht, nofun⟩

/-- **What one unit does,** whatever was compiled before: it answers, its block is reported, and
its output is made if it has one. -/
theorem run_attempt_compileUnit (r : Rustc) (options : List String)
    (hfresh : (m.asked b.store).artifacts.find? (b.store.units.get u).name = none) :
    ∃ t, (r.compileUnit options u).attempt.run m b =
        (.finished (r.answer options b.store (b.store.units.get u)),
          ⟨t, b.reported ++ r.block options b.store (b.store.units.get u)⟩) ∧
      m.Touches (if (r.output? options b.store (b.store.units.get u)).isSome then
        [(b.store.units.get u).name] else []) b.store t ∧
      ∀ bytes, r.output? options b.store (b.store.units.get u) = some bytes →
        ∃ a, m.Made (b.store.units.get u).name bytes a t := by
  set v := b.store.units.get u
  cases hran : r.ran? options b.store v with
  | none =>
    have hu : v.content = none := Option.map_eq_none_iff.1 hran
    have hresult : r.result options b.store v = .ok none := by rw [result, hran]
    refine ⟨b.store, ?_, untouched_of_none (by rw [output?, hresult]; rfl) (.refl m b.store)⟩
    rw [answer, hresult, block, hran]
    exact Interaction.run_attempt_of_finished (run_compileUnit_pending hu)
  | some ended =>
    obtain ⟨text, hu, hended⟩ := Option.map_eq_some_iff.1 hran
    cases ended with
    -- a process that was not started asked the manager for nothing
    | error e =>
      have hresult : r.result options b.store v = .error (.toolchain (.cannotSpawn e)) := by
        rw [result, hran]
      refine ⟨_, ?_, untouched_of_none (by rw [output?, hresult]; rfl)
        (FileManager.touches_execute m r.path (r.arguments v.name options) (Text.Utf8.encode text)
          b.store)⟩
      rw [answer, hresult, block, hran, List.append_nil]
      exact Interaction.run_attempt_of_failed (run_compileUnit_unspawned hu hended)
    | ok output =>
      have hblock : r.block options b.store v = said v.name output := by rw [block, hran]
      have hresult : r.result options b.store v =
          .ok (if output.status.isSuccess then some output.stdout else none) := by
        rw [result, hran]
      rw [answer, hblock]
      cases hstatus : output.status.isSuccess with
      | false =>
        rw [hstatus, if_neg Bool.false_ne_true] at hresult
        obtain ⟨t, hrun, htouches⟩ := run_compileUnit_failed (m := m) hu hended hstatus
        refine ⟨t, ?_, untouched_of_none (by rw [output?, hresult]; rfl) htouches⟩
        rw [hresult]
        exact Interaction.run_attempt_of_finished hrun
      | true =>
        rw [hstatus, if_pos rfl] at hresult
        have houtput : r.output? options b.store v = some output.stdout := by
          rw [output?, hresult]
          rfl
        obtain ⟨t, a, hrun, htouches, hmade⟩ := run_compileUnit_exited hu hfresh hended hstatus
        rw [houtput, hresult]
        refine ⟨t, Interaction.run_attempt_of_finished hrun, htouches, fun bytes h => ?_⟩
        obtain rfl := Option.some.inj h
        exact ⟨a, hmade⟩

/-! ### A list of units -/

/-- What some units come to, one after the other, from the store `s` on: their blocks and their
outputs. -/
structure Totals (r : Rustc) (options : List String) (m : FileManager) (s : Store)
    (ds : List Diagnostic) (units : List (Ref SourceUnit)) (b : BuildState) : Prop where
  yields : m.Yields (fun u => r.output? options s (s.units.get u)) s units b.store
  reported : b.reported = ds ++ units.flatMap fun u => r.block options s (s.units.get u)

variable {units before : List (Ref SourceUnit)} {ds : List Diagnostic}

/-- What a unit comes to depends on the programs in the file system alone. -/
theorem result_congr (r : Rustc) (options : List String) (h : t.files = s.files) (u : SourceUnit) :
    r.result options t u = r.result options s u := by
  rw [result, r.ran?_congr options h, result]

/-- What is reported about a unit depends on the programs in the file system alone. -/
theorem block_congr (r : Rustc) (options : List String) (h : t.files = s.files) (u : SourceUnit) :
    r.block options t u = r.block options s u := by
  rw [block, r.ran?_congr options h, block]

/-- **One unit more:** it does what it does in the store in which the list began, and everything
that was done before stays. -/
theorem Totals.step (h : r.Totals options m s ds before b)
    (hnames : ((before ++ [u]).map fun u => (s.units.get u).name).Nodup)
    (hfresh : ∀ name, (m.asked s).artifacts.find? name = none) :
    ∃ b', (r.compileUnit options u).attempt.run m b =
        (.finished (r.answer options s (s.units.get u)), b') ∧
      r.Totals options m s ds (before ++ [u]) b' := by
  have hnew := FileManager.notMem_of_nodup_concat hnames
  have hunit : b.store.units.get u = s.units.get u := by rw [h.yields.touches.units]
  have hresult := r.result_congr options h.yields.touches.files (s.units.get u)
  have hblock := r.block_congr options h.yields.touches.files (s.units.get u)
  have hfresh' : (m.asked b.store).artifacts.find? (b.store.units.get u).name = none := by
    rw [hunit, h.yields.fresh hnew, hfresh]
  obtain ⟨t, hrun, htouches, hmade⟩ := r.run_attempt_compileUnit options hfresh'
  rw [hunit, answer, hresult, hblock] at hrun
  rw [hunit, output?, hresult] at htouches hmade
  refine ⟨_, hrun, h.yields.step hnew htouches hmade, ?_⟩
  rw [h.reported, List.append_assoc, List.flatMap_append, List.flatMap_singleton]

/-! ### The verdict -/

/-- How a round ends, from what its units answered: the first error, or whether all were
accepted. -/
def decided : List (Except Error Bool) → Outcome Bool
  | [] => .finished true
  | .error e :: _ => .failed e
  | .ok ok :: rest =>
    match decided rest with
    | .finished others => .finished (others && ok)
    | ending => ending

/-- A round ends as its answers decide, and does nothing more. -/
theorem run_verdict_eq (answers : List (Except Error Bool)) (b : BuildState) :
    (verdict answers).run m b = (decided answers, b) := by
  induction answers with
  | nil => rfl
  | cons a answers ih =>
    cases a with
    | error e => rfl
    | ok ok =>
      show ((verdict answers).bind _).run m b = _
      rw [Interaction.run_bind, ih, decided]
      cases decided answers <;> rfl

/-- **A round ends with a verdict** exactly if no unit ended with an error, and then with yes
exactly if every unit was accepted. -/
theorem decided_eq_finished_iff {answers : List (Except Error Bool)} {ok : Bool} :
    decided answers = .finished ok ↔
      (∀ a ∈ answers, ∃ v, a = .ok v) ∧ ok = answers.all fun a => a.toOption.getD false := by
  induction answers generalizing ok with
  | nil => simp [decided, eq_comm]
  | cons a answers ih =>
    cases a with
    | error e => simp [decided]
    | ok v =>
      rw [decided, List.forall_mem_cons, List.all_cons]
      cases hrest : decided answers with
      | finished others =>
        obtain ⟨hoks, rfl⟩ := ih.1 hrest
        constructor
        · rintro ⟨rfl⟩
          exact ⟨⟨⟨v, rfl⟩, hoks⟩, Bool.and_comm _ _⟩
        · rintro ⟨-, rfl⟩
          exact congrArg Outcome.finished (Bool.and_comm _ _)
      | failed _ | panicked _ =>
        refine iff_of_false nofun fun h => ?_
        have hfinished := ih.2 ⟨h.1.2, rfl⟩
        rw [hrest] at hfinished
        cases hfinished

/-- **A round that ends with a verdict ends with it in every order of its units.** -/
theorem decided_perm {answers answers' : List (Except Error Bool)} {ok : Bool}
    (hperm : answers'.Perm answers) (h : decided answers = .finished ok) :
    decided answers' = .finished ok := by
  obtain ⟨hoks, hall⟩ := decided_eq_finished_iff.1 h
  refine decided_eq_finished_iff.2 ⟨fun a ha => hoks a (hperm.mem_iff.1 ha), ?_⟩
  rw [hall, Bool.eq_iff_iff, List.all_eq_true, List.all_eq_true]
  exact forall_congr' fun a => imp_congr_left hperm.mem_iff.symm

/-! ### Rounds -/

/-- **A round compiles every unit,** and ends as their answers decide. -/
theorem run_round_eq (r : Rustc) (options : List String)
    (hnames : (units.map fun u => (s.units.get u).name).Nodup)
    (hfresh : ∀ name, (m.asked s).artifacts.find? name = none) (ds : List Diagnostic) :
    ∃ b', (r.round options units).run m ⟨s, ds⟩ =
        (decided (units.map fun u => r.answer options s (s.units.get u)), b') ∧
      r.Totals options m s ds units b' := by
  have hstart : r.Totals options m s ds [] ⟨s, ds⟩ := ⟨.nil m _ s, (List.append_nil _).symm⟩
  obtain ⟨b', hrun, htotals⟩ := Interaction.run_each (m := m)
    (f := fun u => (r.compileUnit options u).attempt)
    (g := fun u => r.answer options s (s.units.get u)) (P := r.Totals options m s ds)
    (fun before u b hinit h => h.step ((hinit.sublist.map _).nodup hnames) hfresh)
    (List.nil_append units) hstart
  refine ⟨b', ?_, htotals⟩
  rw [round, Interaction.run_bind_of_finished hrun, run_verdict_eq]

/-- **What compiling a list of units comes to.**  One round is all there is, as nothing asks for a
source. -/
theorem run_compile_eq (r : Rustc) (options : List String)
    (hnames : (units.map fun u => (s.units.get u).name).Nodup)
    (hasked : m.asked s = .none) :
    ∃ b, (r.toolchain.compile units options).run m ⟨s, []⟩ =
        (decided (units.map fun u => r.answer options s (s.units.get u)), b) ∧
      r.Totals options m s [] units b := by
  have hfresh : ∀ name, (m.asked s).artifacts.find? name = none := by
    rw [hasked]
    exact fun _ => rfl
  by_cases hne : units = []
  · subst hne
    exact ⟨⟨s, []⟩, rfl, .nil m _ s, rfl⟩
  obtain ⟨b, hround, htotals⟩ := r.run_round_eq options hnames hfresh []
  show ∃ b, (Interaction.rounds (r.round options) 2 units).run m ⟨s, []⟩ = _ ∧ _
  cases hdecided : decided (units.map fun u => r.answer options s (s.units.get u)) with
  | finished ok =>
    rw [hdecided] at hround
    -- no unit asks for a source, so the first round leaves nothing for a second one
    have hqueue : (m.asked b.store).queue = [] := by
      rw [htotals.yields.touches.queue, hasked]
      rfl
    have hrest : (Interaction.rounds (r.round options) 1 (m.asked b.store).queue).run m
        (Interaction.taken m b) = (.finished true, Interaction.taken m b) := by
      rw [hqueue]
      rfl
    refine ⟨Interaction.taken m b, ?_,
      htotals.yields.of_touches (FileManager.touches_takeGenerated hqueue), htotals.reported⟩
    have hrun := Interaction.run_rounds_of_ne_nil 0 hne hround hrest
    rwa [Bool.and_true] at hrun
  | failed e =>
    rw [hdecided] at hround
    refine ⟨b, ?_, htotals⟩
    rw [Interaction.rounds_of_ne_nil _ 0 hne]
    show ((r.round options units).bind _).run m ⟨s, []⟩ = _
    rw [Interaction.run_bind, hround]
  | panicked message =>
    rw [hdecided] at hround
    refine ⟨b, ?_, htotals⟩
    rw [Interaction.rounds_of_ne_nil _ 0 hne]
    show ((r.round options units).bind _).run m ⟨s, []⟩ = _
    rw [Interaction.run_bind, hround]

/-- **The order of units makes no difference.**  If compiling units of different names ends with
a verdict, then compiling them in another order ends with the same verdict; the loader owns the
same names, each with the same artifact; and what is reported is the block of every unit, once
in the one order and once in the other.  A block is about its unit, and about no other. -/
theorem compile_perm (r : Rustc) (options : List String) (standard : StandardFiles) (loader : Loader)
    (finder : Finder) (s : Store) (howned : loader.OwnsLive s) {units units' : List (Ref SourceUnit)}
    (hperm : units'.Perm units) (hnames : (units.map fun u => (s.units.get u).name).Nodup)
    {ok : Bool} {b : BuildState}
    (hrun : (r.toolchain.compile units options).run (FileManager.new standard loader finder s).1
      ⟨(FileManager.new standard loader finder s).2, []⟩ = (.finished ok, b)) :
    ∃ b', (r.toolchain.compile units' options).run (FileManager.new standard loader finder s).1
        ⟨(FileManager.new standard loader finder s).2, []⟩ = (.finished ok, b') ∧
      (∀ name, (loader.artifact? name b'.store).map b'.store.artifacts.get =
        (loader.artifact? name b.store).map b.store.artifacts.get) ∧
      b.reported = units.flatMap (fun u => r.block options s (s.units.get u)) ∧
      b'.reported = units'.flatMap (fun u => r.block options s (s.units.get u)) ∧
      ∀ u ∈ units, ∀ d ∈ r.block options s (s.units.get u), d.source = some (s.units.get u).name := by
  set m := (FileManager.new standard loader finder s).1
  set t := (FileManager.new standard loader finder s).2
  have hasked : m.asked t = .none := FileManager.asked_new standard loader finder s
  have hnames' : (units'.map fun u => (s.units.get u).name).Nodup := (hperm.map _).nodup_iff.2 hnames
  obtain ⟨b₁, hfirst, htotals⟩ := r.run_compile_eq options (s := t) hnames hasked
  obtain ⟨b', hsecond, htotals'⟩ := r.run_compile_eq options (s := t) hnames' hasked
  rw [hrun] at hfirst
  obtain ⟨hdecided, rfl⟩ := Prod.mk.inj hfirst
  have hfiles : t.files = s.files := rfl
  have hblock : (fun u => r.block options t (t.units.get u)) =
      fun u => r.block options s (s.units.get u) :=
    funext fun u => r.block_congr options hfiles (s.units.get u)
  have hreported := htotals.reported
  have hreported' := htotals'.reported
  rw [hblock, List.nil_append] at hreported hreported'
  refine ⟨b', ?_, fun name => ?_, hreported, hreported', fun u _ d hd => source_of_mem_block hd⟩
  · rw [hsecond, decided_perm (hperm.map _) hdecided.symm]
  · have howned' : ∀ n a, m.loader.artifact? n t = some a → t.artifacts.Live a := howned
    exact htotals.yields.artifact?_perm howned' hperm htotals'.yields name

/-- A store with the compiler that copies its input, a unit `A` with a text, and two units `B` and
`C` that were never written. -/
def threeUnits : Store := (Compiler.twoUnits.newUnit (.pending "C")).2

/-- **Three units in two orders.**  The verdict is no both times, `A` is owned as its text both
times, and the errors about `B` and `C` change places. -/
theorem compile_perm_threeUnits :
    ∃ (m : FileManager) (b b' : BuildState),
      (Compiler.copier.toolchain.compile [⟨0⟩, ⟨1⟩, ⟨2⟩] []).run m ⟨threeUnits.newOutputs.2, []⟩ =
          (.finished false, b) ∧
        (Compiler.copier.toolchain.compile [⟨2⟩, ⟨0⟩, ⟨1⟩] []).run m ⟨threeUnits.newOutputs.2, []⟩ =
          (.finished false, b') ∧
        b.reported = [unwritten "B", unwritten "C"] ∧ b'.reported = [unwritten "C", unwritten "B"] ∧
        (m.loader.artifact? "A" b.store).map b.store.artifacts.get =
          some ⟨"A", .compiled, [97], false, none⟩ ∧
        (m.loader.artifact? "A" b'.store).map b'.store.artifacts.get =
          some ⟨"A", .compiled, [97], false, none⟩ := by
  set standard := Directories.none.toStandardFiles
  set loader := (Loader.new Host.empty (.image 0) Compiler.twoUnits).1
  set finder : Finder := ⟨Host.empty, defaultExtension⟩
  set m := (FileManager.new standard loader finder threeUnits).1
  set t := (FileManager.new standard loader finder threeUnits).2
  have hnames : ([⟨0⟩, ⟨1⟩, ⟨2⟩].map fun u => (threeUnits.units.get u).name).Nodup := by
    decide +kernel
  have hA : Compiler.copier.answer [] t (t.units.get ⟨0⟩) = .ok true :=
    eq_ok_of_toOption_eq_some (by decide +kernel)
  have hB : Compiler.copier.answer [] t (t.units.get ⟨1⟩) = .ok false :=
    eq_ok_of_toOption_eq_some (by decide +kernel)
  have hC : Compiler.copier.answer [] t (t.units.get ⟨2⟩) = .ok false :=
    eq_ok_of_toOption_eq_some (by decide +kernel)
  have houtput : Compiler.copier.output? [] t (t.units.get ⟨0⟩) = some [97] := by decide +kernel
  have hblocks : Compiler.copier.block [] threeUnits (threeUnits.units.get ⟨0⟩) = [] ∧
      Compiler.copier.block [] threeUnits (threeUnits.units.get ⟨1⟩) = [unwritten "B"] ∧
      Compiler.copier.block [] threeUnits (threeUnits.units.get ⟨2⟩) = [unwritten "C"] := by
    decide +kernel
  have howned : loader.OwnsLive threeUnits := by
    intro name r hr
    cases hr
  obtain ⟨b, hrun, htotals⟩ := Compiler.copier.run_compile_eq [] (s := t) hnames
    (FileManager.asked_new standard loader finder threeUnits)
  have hdecided : decided ([⟨0⟩, ⟨1⟩, ⟨2⟩].map fun u => Compiler.copier.answer [] t (t.units.get u)) =
      .finished false := by
    rw [List.map_cons, List.map_cons, List.map_cons, hA, hB, hC]
    rfl
  rw [hdecided] at hrun
  have hperm : [⟨2⟩, ⟨0⟩, ⟨1⟩].Perm ([⟨0⟩, ⟨1⟩, ⟨2⟩] : List (Ref SourceUnit)) := by decide
  obtain ⟨b', hrun', hsame, hreported, hreported', -⟩ := compile_perm Compiler.copier [] standard
    loader finder threeUnits howned hperm hnames hrun
  obtain ⟨a, ha⟩ := htotals.yields.made ⟨0⟩ (List.mem_cons_self ..) [97] houtput
  have hname : (t.units.get ⟨0⟩).name = "A" := by decide +kernel
  rw [hname] at ha
  have hfirst : (loader.artifact? "A" b.store).map b.store.artifacts.get =
      some ⟨"A", .compiled, [97], false, none⟩ := by
    have howner : loader.artifact? "A" b.store = some a := ha.owned
    rw [howner, Option.map_some, ha.artifact]
  refine ⟨m, b, b', hrun, hrun', hreported.trans ?_, hreported'.trans ?_, hfirst,
    (hsame "A").trans hfirst⟩
  · simp [hblocks]
  · simp [hblocks]

end Rustc
end LiveBuild
