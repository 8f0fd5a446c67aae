/-
# From source texts to images

The compiler toolchain compiles a list of units that have different names, and a build with
it loads what came of them.  Whatever the compiler's process is as a function of its
arguments and its input:

* the verdict is yes exactly if every unit was compiled to something;
* a unit that was not has an error about it and no output, whatever else is said;
* a unit that was is owned under its name, as exactly what its process wrote;
* a build that succeeds maps the name of every unit to an image of that
  (`compile_units`).
-/

import LiveBuild.FileSystem.Edit
import LiveBuild.Proofs.Compiler.Conduct
import LiveBuild.Proofs.Store.Image
import LiveBuild.Proofs.Toolchain.Rustc
import LiveBuild.StandardFiles.Directories

namespace LiveBuild
namespace Compiler

variable {c : Compiler} {s : Store}

/-- **Units that are queued have different names:** a second unit of a name is refused. -/
theorem nodup_queuedNames_addUnit {c' : Compiler} {u : Ref SourceUnit}
    (h : c.addUnit u s = .ok c') (hc : (c.queuedNames s).Nodup) : (c'.queuedNames s).Nodup := by
  simp only [addUnit] at h
  split at h
  · cases h
  · split at h
    · cases h
    · split at h
      · cases h
      · rename_i hnew
        rw [← Except.ok.inj h, queuedNames, List.map_append, List.nodup_append]
        refine ⟨hc, List.nodup_singleton _, fun name hname name' hname' => ?_⟩
        rw [List.map_singleton, List.mem_singleton] at hname'
        rintro rfl
        exact hnew (hname' ▸ hname)

/-- What an artifact shows when the toolchain is done, it shows when the build is over. -/
theorem shows_of_buildIn {id : Nat} (hl : c.loader.materializer = .image id) {o : VisitOrder}
    {built : List (String × Ref LoadedArtifact)} (h : (c.buildIn o s).outcome = .ok built)
    {name : String} {a : Ref Artifact} {bytes : Bytes}
    (howned : c.loader.artifact? name (c.closing s).store = some a)
    (hshows : (c.closing s).store.Shows a bytes) :
    ∃ h, (name, h) ∈ built ∧ ((c.buildIn o s).store.loaded.get h).image = bytes := by
  have hall := (materializeAll_of_buildIn h).2
  have hsettled : (c.settled s).Shows a bytes := by
    have hfinish : ((c.files s).finish (c.closing s).store).Shows a bytes := hshows.finalizeAll _
    exact ⟨hfinish.content, hfinish.image⟩
  have howned' : c.loader.artifact? name (c.settled s) = some a := by
    rw [← howned, Loader.artifact?, Loader.artifact?, Loader.table, Loader.table]
    exact congrArg (fun ns => Table.find? (Arena.get ns _) _) (Store.namespaces_finalizeAll _ _)
  have hafter : (c.buildIn o s).store.Shows a bytes := by
    have hpreserved := Loader.materializeAll_preserves (l := c.loader) (P := fun t => t.Shows a bytes)
      (fun t r' ht => by rw [hl]; exact ht.materialize id r')
      (o.names (c.loader.table (c.settled s))) hsettled
    rwa [hall] at hpreserved
  have hname : name ∈ built.map Prod.fst := by
    rw [Loader.names_materializeAll hall, List.mem_filter, howned', Option.isSome_some]
    refine ⟨?_, rfl⟩
    rw [(o.perm _).mem_iff, ← Table.find?_isSome_iff]
    exact Option.isSome_of_eq_some howned'
  obtain ⟨⟨n, h⟩, hmem, rfl⟩ := List.mem_map.1 hname
  obtain ⟨r, hheld⟩ := Loader.holds_of_materializeAll hall _ hmem
  have hkept := Loader.artifact?_materializeAll (l := c.loader)
    (o.names (c.loader.table (c.settled s))) (c.settled s) n
  rw [hall, hheld.owned, howned'] at hkept
  obtain rfl := Option.some.inj hkept
  exact ⟨h, hmem, (hafter.image h hheld.loaded).2⟩

/-- **What compiling units and building them comes to.** -/
theorem compile_units (r : Rustc) (f : Executable) (options : List String)
    (units : List (Ref SourceUnit)) (s : Store)
    (hnames : (units.map fun u => (s.units.get u).name).Nodup)
    (hruns : r.RunsAs f options units s) :
    (∀ (standard : StandardFiles) (loader : Loader) (finder : Finder),
      ∃ b, (r.toolchain.compile units options).run (FileManager.new standard loader finder s).1
          ⟨(FileManager.new standard loader finder s).2, []⟩ =
            (.finished (units.all fun u => (r.compiled? f options (s.units.get u)).isSome), b) ∧
        ∀ u ∈ units,
          (r.compiled? f options (s.units.get u) = none →
            (∃ d ∈ b.reported, d.isWarning = false ∧ d.source = some (s.units.get u).name) ∧
            (((FileManager.new standard loader finder s).1.asked b.store).artifacts.find?
              (s.units.get u).name) = none ∧
            loader.artifact? (s.units.get u).name b.store =
              loader.artifact? (s.units.get u).name s) ∧
          ∀ bytes, r.compiled? f options (s.units.get u) = some bytes →
            ∃ a, loader.artifact? (s.units.get u).name b.store = some a ∧
              (b.store.artifacts.get a).name = (s.units.get u).name ∧
              (b.store.artifacts.get a).kind = .compiled ∧
              (b.store.artifacts.get a).bytes = bytes) ∧
    ∀ (c : Compiler) (o : VisitOrder) (id : Nat) (built : List (String × Ref LoadedArtifact)),
      c.toolchain = r.toolchain → c.queued = units → c.options.effective = options →
      c.loader.materializer = .image id → (c.buildIn o s).outcome = .ok built →
        ∀ u ∈ units, ∃ bytes h, r.compiled? f options (s.units.get u) = some bytes ∧
          ((s.units.get u).name, h) ∈ built ∧
          ((c.buildIn o s).store.loaded.get h).image = bytes := by
  have hall : ∀ (standard : StandardFiles) (loader : Loader) (finder : Finder),
      ∃ b, (r.toolchain.compile units options).run (FileManager.new standard loader finder s).1
          ⟨(FileManager.new standard loader finder s).2, []⟩ =
            (.finished (units.all fun u => (r.compiled? f options (s.units.get u)).isSome), b) ∧
        r.Progress f options (FileManager.new standard loader finder s).1
          (FileManager.new standard loader finder s).2 units b :=
    fun standard loader finder => Rustc.run_compile hnames (Arena.get_alloc_self _ _)
      (hruns.congr rfl rfl)
  constructor
  · intro standard loader finder
    obtain ⟨b, hrun, hprogress⟩ := hall standard loader finder
    refine ⟨b, hrun, fun u hu => ⟨fun hnone => ?_, fun bytes hbytes => ?_⟩⟩
    · obtain ⟨hasked, howned⟩ := hprogress.unmade hnames hu hnone
      refine ⟨hprogress.failed u hu hnone, hasked.trans ?_, howned⟩
      exact congrArg (fun o => Table.find? (Outputs.artifacts o) _) (Arena.get_alloc_self _ _)
    · obtain ⟨a, ha⟩ := hprogress.made u hu bytes hbytes
      exact ⟨a, ha.owned, congrArg Artifact.name ha.artifact, congrArg Artifact.kind ha.artifact,
        congrArg Artifact.bytes ha.artifact⟩
  · intro c o id built htoolchain hqueued hoptions hmaterializer hbuilt u hu
    obtain ⟨b, hrun, hprogress⟩ := hall c.standard c.loader c.finder
    have hclosing : c.closing s = b := by
      rw [closing, work, htoolchain, hqueued, hoptions]
      exact congrArg Prod.snd hrun
    cases hcompiled : r.compiled? f options (s.units.get u) with
    | none =>
      -- a unit that was not compiled has an error, and the build would have failed
      obtain ⟨d, hd, herror, -⟩ := hprogress.failed u hu hcompiled
      have hclean := (materializeAll_of_buildIn hbuilt).1
      rw [← Bool.not_eq_true, Classified.hasErrors_iff, ← reported_closing, hclosing] at hclean
      exact absurd ⟨d, hd, by rw [herror]; exact Bool.false_ne_true⟩ hclean
    | some bytes =>
      obtain ⟨a, ha⟩ := hprogress.made u hu bytes hcompiled
      rw [← hclosing] at ha
      have hshows : (c.closing s).store.Shows a bytes := by
        refine ⟨by rw [ha.artifact], fun h hh => ?_⟩
        rw [ha.artifact] at hh
        cases hh
      obtain ⟨h, hmem, himage⟩ := shows_of_buildIn hmaterializer hbuilt ha.owned hshows
      exact ⟨bytes, h, rfl, hmem, himage⟩

/-- A program that copies its input, and refuses an empty one. -/
def copying : Executable := fun _ input =>
  if input = [] then ⟨.exited 1, [], []⟩ else ⟨.exited 0, input, []⟩

/-- That program as the compiler. -/
def copier : Rustc := ⟨⟨"rustc"⟩, "1", Rustc.defaultEdition⟩

/-- A store with that program, a unit `A` with a text, and a unit `B` that was never written. -/
def twoUnits : Store :=
  let s := { Store.empty with files := FileSystem.empty.install ⟨"rustc"⟩ copying }
  let (_, s) := s.newUnit ⟨"A", some "a"⟩
  (s.newUnit (.pending "B")).2

/-- The first of the two units has a text, the second one is still to be written. -/
theorem get_twoUnits :
    twoUnits.units.get ⟨0⟩ = ⟨"A", some "a"⟩ ∧ twoUnits.units.get ⟨1⟩ = .pending "B" := by
  decide +kernel

/-- A compiler in that store that has queued the unit `A`. -/
def copyingCompiler : Compiler × Store :=
  let (c, s) := Compiler.new copier.toolchain Host.empty .none Directories.none.toStandardFiles
    (.image 0) twoUnits
  ({ c with queued := [⟨0⟩] }, s)

/-- The program in the file system copies its input, for the two units and these options. -/
theorem runsAs_copying (options : List String) (h : options = [] ∨ options = [verboseFlag]) :
    copier.RunsAs copying options [⟨0⟩, ⟨1⟩] twoUnits := by
  intro u hu text htext
  rcases List.mem_cons.1 hu with rfl | hu
  · rw [get_twoUnits.1] at htext ⊢
    obtain rfl := Option.some.inj htext
    rcases h with rfl | rfl <;> decide +kernel
  · obtain rfl := List.mem_singleton.1 hu
    rw [get_twoUnits.2] at htext
    cases htext

/-- The unit with a text is compiled and loaded. -/
theorem outcome_copyingCompiler :
    (copyingCompiler.1.build copyingCompiler.2).outcome = .ok [("A", ⟨0⟩)] :=
  eq_ok_of_toOption_eq_some (by decide +kernel)

/-- Of the two units one is compiled and one is reported, and a build of the first one alone
maps its name to its text. -/
theorem compile_twoUnits :
    (∃ m b, (copier.toolchain.compile [⟨0⟩, ⟨1⟩] []).run m ⟨twoUnits.newOutputs.2, []⟩ =
        (.finished false, b) ∧
      (∃ d ∈ b.reported, d.isWarning = false ∧ d.source = some "B") ∧
      ∃ a, m.loader.artifact? "A" b.store = some a ∧ (b.store.artifacts.get a).bytes = [97]) ∧
    ∃ h, (copyingCompiler.1.build copyingCompiler.2).outcome = .ok [("A", h)] ∧
      ((copyingCompiler.1.build copyingCompiler.2).store.loaded.get h).image = [97] := by
  constructor
  · obtain ⟨b, hrun, hunits⟩ := (compile_units copier copying [] [⟨0⟩, ⟨1⟩] twoUnits
      (by decide +kernel) (runsAs_copying [] (.inl rfl))).1 Directories.none.toStandardFiles
        (Loader.new Host.empty (.image 0) twoUnits).1 ⟨Host.empty, defaultExtension⟩
    have hverdict : ([⟨0⟩, ⟨1⟩] : List (Ref SourceUnit)).all
        (fun u => (copier.compiled? copying [] (twoUnits.units.get u)).isSome) = false := by
      decide +kernel
    have hA : copier.compiled? copying [] (twoUnits.units.get ⟨0⟩) = some [97] := by decide +kernel
    have hB : copier.compiled? copying [] (twoUnits.units.get ⟨1⟩) = none := by decide +kernel
    obtain ⟨a, howned, -, -, hbytes⟩ := (hunits ⟨0⟩ (by simp)).2 [97] hA
    obtain ⟨d, hd, herror, hsource⟩ := ((hunits ⟨1⟩ (by simp)).1 hB).1
    rw [hverdict] at hrun
    rw [get_twoUnits.1] at howned
    rw [get_twoUnits.2] at hsource
    exact ⟨_, b, hrun, ⟨d, hd, herror, hsource⟩, a, howned, hbytes⟩
  · have hboth : copier.RunsAs copying [verboseFlag] [⟨0⟩, ⟨1⟩] copyingCompiler.2 :=
      (runsAs_copying [verboseFlag] (.inr rfl)).congr rfl rfl
    have hruns : copier.RunsAs copying [verboseFlag] [⟨0⟩] copyingCompiler.2 :=
      fun u hu => hboth u (List.mem_cons.2 (.inl (List.mem_singleton.1 hu)))
    obtain ⟨bytes, h, hbytes, hmem, himage⟩ := (compile_units copier copying [verboseFlag] [⟨0⟩]
      copyingCompiler.2 (by decide +kernel) hruns).2 copyingCompiler.1 .increasing 0 _ rfl rfl rfl rfl
        outcome_copyingCompiler ⟨0⟩ (List.mem_singleton_self _)
    have hA : copier.compiled? copying [verboseFlag] (copyingCompiler.2.units.get ⟨0⟩) =
        some [97] := by decide +kernel
    rw [hA] at hbytes
    obtain rfl := Option.some.inj hbytes
    obtain ⟨-, rfl⟩ := Prod.mk.inj (List.mem_singleton.1 hmem)
    exact ⟨_, outcome_copyingCompiler, himage⟩

end Compiler
end LiveBuild
