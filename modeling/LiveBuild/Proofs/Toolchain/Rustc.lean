/-
# What the compiler toolchain does to a list of units

The compiler is a process for each unit: whatever function of its arguments and its input
the process is, a unit is compiled to what the process writes if the unit has text and the
process ends well, and to nothing otherwise (`compiled?`).

One unit (`run_compileUnit`):

| `compiled?` | verdict | output | diagnostics |
| --- | --- | --- | --- |
| bytes | yes | these bytes, under the unit's name | any |
| nothing | no | none | at least one that is no warning, about the unit |

The last entry is where a failure cannot be missed: whatever the process says, either one
of the diagnostics read off it is an error, or the toolchain adds one.  A round keeps this
of every unit before (`Progress`), because their names are different.
-/

import LiveBuild.Proofs.Toolchain.Outputs
import LiveBuild.Toolchain.Rustc
import Mathlib.Data.List.Nodup

namespace LiveBuild

/-- Whatever a compiler says is about the unit it was given. -/
theorem CompilerOutput.source_of_mem_parse {unit output : String} {d : Diagnostic}
    (h : d ∈ parse unit output) : d.source = some unit := by
  obtain ⟨line, -, hline⟩ := List.mem_filterMap.1 h
  unfold diagnostic? at hline
  split at hline
  · cases hline
  · split at hline
    · cases hline
    · split at hline
      · cases hline
      · rw [← Option.some.inj hline]
        rfl

/-- What running a program answers depends on the files alone. -/
theorem Store.execute_congr {s t : Store} (h : t.files = s.files) (program : Path)
    (arguments : List String) (stdin : Bytes) :
    (t.execute program arguments stdin).1 = (s.execute program arguments stdin).1 := by
  unfold execute
  rw [h]
  split
  · rfl
  · cases s.files.launch program arguments with
    | error e => rfl
    | ok l => rfl

namespace Rustc

/-- What a unit is compiled to by a compiler that runs as `f`: what its process writes, if
there is a text to compile and the process ends well. -/
def compiled? (r : Rustc) (f : Executable) (options : List String) (u : SourceUnit) :
    Option Bytes :=
  u.content.bind fun text =>
    let output := f (r.arguments u.name options) (Text.Utf8.encode text)
    if output.status.isSuccess then some output.stdout else none

/-- For every unit that has a text the compiler can be run, and runs as `f`. -/
def RunsAs (r : Rustc) (f : Executable) (options : List String) (units : List (Ref SourceUnit))
    (s : Store) : Prop :=
  ∀ u ∈ units, ∀ text, (s.units.get u).content = some text →
    (s.execute r.path (r.arguments (s.units.get u).name options) (Text.Utf8.encode text)).1 =
      .ok (f (r.arguments (s.units.get u).name options) (Text.Utf8.encode text))

/-- What is reported about a unit whose process has ended: what it said, and one error more if it
failed and said no error. -/
def said (unit : String) (output : ProcessOutput) : List Diagnostic :=
  let text := Text.Utf8.decodeLossy output.stderr
  CompilerOutput.parse unit text ++
    if !output.status.isSuccess && (CompilerOutput.parse unit text).all Diagnostic.isWarning then
      [silentFailure unit output.status text]
    else []

variable {r : Rustc} {f : Executable} {options : List String} {m : FileManager} {b : BuildState}
  {u : Ref SourceUnit}

/-- What compiling one unit comes to. -/
structure Compiles (r : Rustc) (f : Executable) (options : List String) (m : FileManager)
    (u : SourceUnit) (b b' : BuildState) : Prop where
  touches : m.Touches (if (r.compiled? f options u).isSome then [u.name] else []) b.store b'.store
  reported : b.reported <+: b'.reported
  failed : r.compiled? f options u = none →
    ∃ d ∈ b'.reported, d.isWarning = false ∧ d.source = some u.name
  made : ∀ bytes, r.compiled? f options u = some bytes → ∃ a, m.Made u.name bytes a b'.store

/-- A unit that was never written is reported. -/
theorem run_compileUnit_pending (hu : (b.store.units.get u).content = none) :
    (r.compileUnit options u).run m b =
      (.finished false, ⟨b.store, b.reported ++
        [.error (b.store.units.get u).name "source was requested but never written"]⟩) := by
  have hunit : (Interaction.unit u).run m b = (.finished (b.store.units.get u), b) := rfl
  rw [compileUnit, Interaction.run_bind_of_finished hunit]
  simp only [hu]
  rfl

/-- A process that fails leaves an error about its unit, whatever it says. -/
theorem exists_error_of_failed (name : String) {output : ProcessOutput}
    (hstatus : output.status.isSuccess = false) :
    ∃ d ∈ said name output, d.isWarning = false ∧ d.source = some name := by
  set text := Text.Utf8.decodeLossy output.stderr
  have hsaid : said name output = CompilerOutput.parse name text ++
      if (CompilerOutput.parse name text).all Diagnostic.isWarning then
        [silentFailure name output.status text] else [] := by
    rw [said, hstatus, Bool.not_false, Bool.true_and]
  rw [hsaid]
  by_cases h : (CompilerOutput.parse name text).all Diagnostic.isWarning = true
  · rw [if_pos h]
    exact ⟨silentFailure name output.status text, by simp, rfl, rfl⟩
  · rw [if_neg h]
    rw [Bool.not_eq_true, List.all_eq_false] at h
    obtain ⟨d, hd, herror⟩ := h
    rw [Bool.not_eq_true] at herror
    exact ⟨d, List.mem_append_left _ hd, herror, CompilerOutput.source_of_mem_parse hd⟩

/-- A unit whose process cannot be started ends with that error. -/
theorem run_compileUnit_unspawned {text : String} {e : OsError}
    (hu : (b.store.units.get u).content = some text)
    (hran : (b.store.execute r.path (r.arguments (b.store.units.get u).name options)
      (Text.Utf8.encode text)).1 = .error e) :
    (r.compileUnit options u).run m b =
      (.failed (.toolchain (.cannotSpawn e)),
        ⟨(b.store.execute r.path (r.arguments (b.store.units.get u).name options)
          (Text.Utf8.encode text)).2, b.reported⟩) := by
  have hunit : (Interaction.unit u).run m b = (.finished (b.store.units.get u), b) := rfl
  have hexec : (Interaction.execute r.path (r.arguments (b.store.units.get u).name options)
      (Text.Utf8.encode text)).run m b =
        (.finished (.error e), ⟨(b.store.execute r.path
          (r.arguments (b.store.units.get u).name options) (Text.Utf8.encode text)).2,
            b.reported⟩) := by
    rw [← hran]
    rfl
  rw [compileUnit, Interaction.run_bind_of_finished hunit]
  simp only [hu]
  rw [Interaction.run_bind_of_finished hexec]
  rfl

/-- A unit with a text comes down to what follows when its process has ended. -/
theorem run_compileUnit_ran {text : String} {output : ProcessOutput}
    (hu : (b.store.units.get u).content = some text)
    (hran : (b.store.execute r.path (r.arguments (b.store.units.get u).name options)
      (Text.Utf8.encode text)).1 = .ok output) :
    (r.compileUnit options u).run m b =
      (if output.status.isSuccess then do
          let sink ← .outputFor .classOutput (b.store.units.get u).name .compiled (some (.source u))
          .write sink output.stdout
          return true
        else do
          if (CompilerOutput.parse (b.store.units.get u).name
              (Text.Utf8.decodeLossy output.stderr)).all Diagnostic.isWarning then
            .report [silentFailure (b.store.units.get u).name output.status
              (Text.Utf8.decodeLossy output.stderr)]
          return false : Interaction Bool).run m
        ⟨(b.store.execute r.path (r.arguments (b.store.units.get u).name options)
            (Text.Utf8.encode text)).2,
          b.reported ++ CompilerOutput.parse (b.store.units.get u).name
            (Text.Utf8.decodeLossy output.stderr)⟩ := by
  have hunit : (Interaction.unit u).run m b = (.finished (b.store.units.get u), b) := rfl
  have hexec : (Interaction.execute r.path (r.arguments (b.store.units.get u).name options)
      (Text.Utf8.encode text)).run m b =
        (.finished (.ok output), ⟨(b.store.execute r.path
          (r.arguments (b.store.units.get u).name options) (Text.Utf8.encode text)).2,
            b.reported⟩) := by
    rw [← hran]
    rfl
  rw [compileUnit, Interaction.run_bind_of_finished hunit]
  simp only [hu]
  rw [Interaction.run_bind_of_finished hexec]
  rfl

/-- A unit whose process fails is reported, and nothing comes of it. -/
theorem run_compileUnit_failed {text : String} {output : ProcessOutput}
    (hu : (b.store.units.get u).content = some text)
    (hran : (b.store.execute r.path (r.arguments (b.store.units.get u).name options)
      (Text.Utf8.encode text)).1 = .ok output)
    (hstatus : output.status.isSuccess = false) :
    ∃ t, (r.compileUnit options u).run m b =
        (.finished false, ⟨t, b.reported ++ said (b.store.units.get u).name output⟩) ∧
      m.Touches [] b.store t := by
  set name := (b.store.units.get u).name
  refine ⟨(b.store.execute r.path (r.arguments name options) (Text.Utf8.encode text)).2, ?_,
    FileManager.touches_execute ..⟩
  rw [run_compileUnit_ran hu hran, said, hstatus, if_neg Bool.false_ne_true, Bool.not_false,
    Bool.true_and]
  by_cases hall : (CompilerOutput.parse name
      (Text.Utf8.decodeLossy output.stderr)).all Diagnostic.isWarning = true
  · rw [if_pos hall, if_pos hall, ← List.append_assoc]
    rfl
  · rw [if_neg hall, if_neg hall, List.append_nil]
    rfl

/-- A unit whose process ends well is made, as what the process wrote. -/
theorem run_compileUnit_exited {text : String} {output : ProcessOutput}
    (hu : (b.store.units.get u).content = some text)
    (hfresh : (m.asked b.store).artifacts.find? (b.store.units.get u).name = none)
    (hran : (b.store.execute r.path (r.arguments (b.store.units.get u).name options)
      (Text.Utf8.encode text)).1 = .ok output)
    (hstatus : output.status.isSuccess = true) :
    ∃ t a, (r.compileUnit options u).run m b =
        (.finished true, ⟨t, b.reported ++ said (b.store.units.get u).name output⟩) ∧
      m.Touches [(b.store.units.get u).name] b.store t ∧
      m.Made (b.store.units.get u).name output.stdout a t := by
  set name := (b.store.units.get u).name
  set t := (b.store.execute r.path (r.arguments name options) (Text.Utf8.encode text)).2
  have htouches : m.Touches [] b.store t := FileManager.touches_execute ..
  have hfresh' : (m.asked t).artifacts.find? name = none := by
    rw [htouches.asked name List.not_mem_nil, hfresh]
  have hsaid : said name output =
      CompilerOutput.parse name (Text.Utf8.decodeLossy output.stderr) := by
    rw [said, hstatus]
    exact List.append_nil _
  obtain ⟨sink, b₁, a, t', hout, hwrite, htouches', hmade⟩ := FileManager.run_output
    ⟨t, b.reported ++ said name output⟩ .classOutput (some (.source u)) output.stdout hfresh'
  refine ⟨t', a, ?_, htouches.trans htouches', hmade⟩
  rw [run_compileUnit_ran hu hran, hstatus, if_pos rfl, ← hsaid, Interaction.run_bind_of_finished hout,
    Interaction.run_bind_of_finished hwrite]
  rfl

/-- A unit with a text is reported if its process fails, and made if it ends well. -/
theorem run_compileUnit_text {text : String} (hu : (b.store.units.get u).content = some text)
    (hfresh : (m.asked b.store).artifacts.find? (b.store.units.get u).name = none)
    (hran : (b.store.execute r.path (r.arguments (b.store.units.get u).name options)
      (Text.Utf8.encode text)).1 =
        .ok (f (r.arguments (b.store.units.get u).name options) (Text.Utf8.encode text))) :
    ∃ b', (r.compileUnit options u).run m b =
        (.finished (r.compiled? f options (b.store.units.get u)).isSome, b') ∧
      r.Compiles f options m (b.store.units.get u) b b' := by
  set output := f (r.arguments (b.store.units.get u).name options) (Text.Utf8.encode text)
  have hcompiled : r.compiled? f options (b.store.units.get u) =
      if output.status.isSuccess then some output.stdout else none := by
    rw [compiled?, hu, Option.bind_some]
  cases hstatus : output.status.isSuccess with
  | false =>
    rw [hstatus, if_neg Bool.false_ne_true] at hcompiled
    obtain ⟨t, hrun, htouches⟩ := run_compileUnit_failed (m := m) hu hran hstatus
    obtain ⟨d, hd, herror⟩ := exists_error_of_failed (b.store.units.get u).name hstatus
    rw [hcompiled]
    refine ⟨_, hrun, ?_, List.prefix_append .., fun _ => ⟨d, List.mem_append_right _ hd, herror⟩,
      fun bytes h => ?_⟩
    · rw [hcompiled]
      exact htouches
    · rw [hcompiled] at h
      cases h
  | true =>
    rw [hstatus, if_pos rfl] at hcompiled
    obtain ⟨t, a, hrun, htouches, hmade⟩ := run_compileUnit_exited hu hfresh hran hstatus
    rw [hcompiled]
    refine ⟨_, hrun, ?_, List.prefix_append .., fun h => ?_, fun bytes h => ?_⟩
    · rw [hcompiled]
      exact htouches
    · rw [hcompiled] at h
      cases h
    · rw [hcompiled] at h
      obtain rfl := Option.some.inj h
      exact ⟨a, hmade⟩

/-- **What one unit comes to:** it is made, or there is an error about it. -/
theorem run_compileUnit {units : List (Ref SourceUnit)} (hmem : u ∈ units)
    (hfresh : (m.asked b.store).artifacts.find? (b.store.units.get u).name = none)
    (hruns : r.RunsAs f options units b.store) :
    ∃ b', (r.compileUnit options u).run m b =
        (.finished (r.compiled? f options (b.store.units.get u)).isSome, b') ∧
      r.Compiles f options m (b.store.units.get u) b b' := by
  cases hu : (b.store.units.get u).content with
  | none =>
    have hnone : r.compiled? f options (b.store.units.get u) = none := by
      rw [compiled?, hu, Option.bind_none]
    rw [hnone]
    refine ⟨_, run_compileUnit_pending hu, ?_, List.prefix_append .., fun _ => ?_, fun bytes h => ?_⟩
    · rw [hnone]
      exact .refl m b.store
    · exact ⟨_, List.mem_append_right _ (List.mem_singleton_self _), rfl, rfl⟩
    · rw [hnone] at h
      cases h
  | some text => exact run_compileUnit_text hu hfresh (hruns u hmem text hu)

/-- What compiling some units comes to, one after the other, from the store `s` on. -/
structure Progress (r : Rustc) (f : Executable) (options : List String) (m : FileManager) (s : Store)
    (units : List (Ref SourceUnit)) (b : BuildState) : Prop where
  touches : m.Touches
    ((units.filter fun u => (r.compiled? f options (s.units.get u)).isSome).map fun u =>
      (s.units.get u).name) s b.store
  failed : ∀ u ∈ units, r.compiled? f options (s.units.get u) = none →
    ∃ d ∈ b.reported, d.isWarning = false ∧ d.source = some (s.units.get u).name
  made : ∀ u ∈ units, ∀ bytes, r.compiled? f options (s.units.get u) = some bytes →
    ∃ a, m.Made (s.units.get u).name bytes a b.store

variable {s : Store} {units before : List (Ref SourceUnit)}

/-- Whether a program is a given function depends on the units and the files alone. -/
theorem RunsAs.congr {t : Store} (h : r.RunsAs f options units s) (hunits : t.units = s.units)
    (hfiles : t.files = s.files) : r.RunsAs f options units t := by
  intro u hu text htext
  rw [hunits] at htext ⊢
  rw [Store.execute_congr hfiles]
  exact h u hu text htext

/-- The units compiled so far have made their outputs and touched nothing else. -/
theorem Progress.yields (h : r.Progress f options m s units b) :
    m.Yields (fun u => r.compiled? f options (s.units.get u)) s units b.store :=
  ⟨h.touches, h.made⟩

/-- **One unit more:** what the units before came to stays, as this one has another name. -/
theorem Progress.step (h : r.Progress f options m s before b) (hmem : u ∈ units)
    (hnames : ((before ++ [u]).map fun u => (s.units.get u).name).Nodup)
    (hfresh : ∀ name, (m.asked s).artifacts.find? name = none)
    (hruns : r.RunsAs f options units s) :
    ∃ b', (r.compileUnit options u).run m b =
        (.finished (r.compiled? f options (s.units.get u)).isSome, b') ∧
      r.Progress f options m s (before ++ [u]) b' := by
  have hunit : b.store.units.get u = s.units.get u := by rw [h.touches.units]
  have hnew := FileManager.notMem_of_nodup_concat hnames
  have hfresh' : (m.asked b.store).artifacts.find? (b.store.units.get u).name = none := by
    rw [hunit, h.yields.fresh hnew, hfresh]
  obtain ⟨b', hrun, hcompiles⟩ := run_compileUnit hmem hfresh'
    (hruns.congr h.touches.units h.touches.files)
  rw [hunit] at hrun hcompiles
  have hyields := h.yields.step hnew hcompiles.touches hcompiles.made
  refine ⟨b', hrun, hyields.touches, fun v hv hnone => ?_, hyields.made⟩
  rcases List.mem_append.1 hv with hv | hv
  · obtain ⟨d, hd, herror⟩ := h.failed v hv hnone
    exact ⟨d, hcompiles.reported.subset hd, herror⟩
  · obtain rfl := List.mem_singleton.1 hv
    exact hcompiles.failed hnone

/-- **A unit that was not compiled has no output:** all that was made has another name. -/
theorem Progress.unmade (h : r.Progress f options m s units b)
    (hnames : (units.map fun u => (s.units.get u).name).Nodup) (hu : u ∈ units)
    (hnone : r.compiled? f options (s.units.get u) = none) :
    (m.asked b.store).artifacts.find? (s.units.get u).name =
        (m.asked s).artifacts.find? (s.units.get u).name ∧
      m.loader.artifact? (s.units.get u).name b.store =
        m.loader.artifact? (s.units.get u).name s := by
  have hnotin := FileManager.Yields.notMem_of_none
    (fun u => r.compiled? f options (s.units.get u)) hnames hu hnone
  exact ⟨h.touches.asked _ hnotin, h.touches.owned _ hnotin⟩

/-- Where no unit broke down, a round ends with the verdict whether all were accepted. -/
theorem run_verdict (oks : List Bool) (b : BuildState) :
    (verdict (oks.map .ok)).run m b = (.finished (oks.all id), b) := by
  induction oks with
  | nil => rfl
  | cons ok oks ih =>
    rw [List.map_cons, verdict, Interaction.run_bind_of_finished ih, List.all_cons, Bool.and_comm]
    rfl

/-- **A round compiles every unit,** whatever becomes of the others. -/
theorem run_round (hnames : (units.map fun u => (s.units.get u).name).Nodup)
    (hfresh : ∀ name, (m.asked s).artifacts.find? name = none)
    (hruns : r.RunsAs f options units s) (ds : List Diagnostic) :
    ∃ b', (r.round options units).run m ⟨s, ds⟩ =
        (.finished (units.all fun u => (r.compiled? f options (s.units.get u)).isSome), b') ∧
      r.Progress f options m s units b' := by
  have hstart : r.Progress f options m s [] ⟨s, ds⟩ :=
    ⟨.refl m s, fun _ hu => absurd hu List.not_mem_nil, fun _ hu => absurd hu List.not_mem_nil⟩
  obtain ⟨b', hrun, hprogress⟩ := Interaction.run_each (m := m)
    (f := fun u => (r.compileUnit options u).attempt)
    (g := fun u => .ok (r.compiled? f options (s.units.get u)).isSome)
    (P := r.Progress f options m s)
    (fun before u b hinit h => by
      have hmem : u ∈ units := hinit.subset (by simp)
      obtain ⟨b', hrun, hstep⟩ := h.step hmem ((hinit.sublist.map _).nodup hnames) hfresh hruns
      exact ⟨b', Interaction.run_attempt_of_finished hrun, hstep⟩)
    (List.nil_append units) hstart
  refine ⟨b', ?_, hprogress⟩
  rw [round, Interaction.run_bind_of_finished hrun]
  have hverdict := run_verdict (m := m)
    (units.map fun u => (r.compiled? f options (s.units.get u)).isSome) b'
  rw [List.map_map, List.all_map] at hverdict
  exact hverdict

/-- What touches no output leaves the progress as it is. -/
theorem Progress.of_touches {t : Store} {ds : List Diagnostic}
    (h : r.Progress f options m s units ⟨t, ds⟩) {t' : Store} (ht : m.Touches [] t t') :
    r.Progress f options m s units ⟨t', ds⟩ :=
  ⟨(h.yields.of_touches ht).touches, h.failed, (h.yields.of_touches ht).made⟩

/-- **The compiler toolchain compiles every unit,** and there is nothing to do in a second round. -/
theorem run_compile (hnames : (units.map fun u => (s.units.get u).name).Nodup)
    (hasked : m.asked s = .none) (hruns : r.RunsAs f options units s) :
    ∃ b', (r.toolchain.compile units options).run m ⟨s, []⟩ =
        (.finished (units.all fun u => (r.compiled? f options (s.units.get u)).isSome), b') ∧
      r.Progress f options m s units b' := by
  have hfresh : ∀ name, (m.asked s).artifacts.find? name = none := by
    rw [hasked]
    exact fun _ => rfl
  cases units with
  | nil =>
    exact ⟨_, rfl, .refl m s, fun _ hu => absurd hu List.not_mem_nil,
      fun _ hu => absurd hu List.not_mem_nil⟩
  | cons u units =>
    obtain ⟨⟨t, ds⟩, hrun, hprogress⟩ := run_round (m := m) hnames hfresh hruns []
    have hqueue : (m.asked t).queue = [] := by
      rw [hprogress.touches.queue, hasked]
      rfl
    have htake : Interaction.takeGenerated.run m ⟨t, ds⟩ =
        (.finished [], ⟨(m.takeGenerated t).2, ds⟩) := by
      rw [← hqueue]
      rfl
    refine ⟨⟨(m.takeGenerated t).2, ds⟩, ?_,
      hprogress.of_touches (FileManager.touches_takeGenerated hqueue)⟩
    show (Interaction.rounds (r.round options) 2 (u :: units)).run m ⟨s, []⟩ = _
    rw [Interaction.rounds, Interaction.run_bind_of_finished hrun,
      Interaction.run_bind_of_finished htake]
    · show (Outcome.finished (_ && true), _) = _
      rw [Bool.and_true]
    · exact List.cons_ne_nil u units

end Rustc
end LiveBuild
