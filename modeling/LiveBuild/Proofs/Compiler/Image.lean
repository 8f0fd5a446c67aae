/-
# The images of a build

A build that makes images maps every owned name to an image of the artifact.  The image
shows what had been written when the artifact was first asked for, by a toolchain that
looked its name up or by the end of a build, and it never changes after that.  What was
written later is not in it, although it is in the bytes of the artifact: so the image is
complete exactly if nothing was written after the first question (`image_of_built`).

A loader may see any history of builds, successful or not, and of resolutions before the
build and after it (`History`).  `writing true` is a toolchain that asks too early.
-/

import LiveBuild.Proofs.Compiler.Conduct
import LiveBuild.StandardFiles.Directories

namespace LiveBuild
namespace Loader

/-- What happens to a loader over a store: builds of any compilers that share it, resolutions
of names, and in the meantime things that spare its artifacts. -/
inductive History (l : Loader) (origin s : Store) : List Deed → Store → Prop
  | nil : History l origin s [] s
  | build {t : Store} {log : List Deed} (h : History l origin s log t) (c : Compiler)
    (hc : c.loader = l) (o : VisitOrder) :
    History l origin s (log ++ c.deeds o t) (c.buildIn o t).store
  | resolve {t : Store} {log : List Deed} (h : History l origin s log t) (name : String) :
    History l origin s (log ++ l.lookups [name] t) ((l.resolve name).attempt t).2
  | meanwhile {t u : Store} {log : List Deed} (h : History l origin s log t)
    (hu : t.Spares origin.artifacts.size u) : History l origin s log u

variable {l : Loader} {origin s t : Store} {ds : List Deed}

/-- **A history is a course.** -/
theorem History.course {id : Nat} (hl : l.materializer = .image id) (ho : l.MadeOver origin)
    (hs : origin.KeepsNamespaces s) (h : l.History origin s ds t) :
    l.Course origin.artifacts.size s ds t := by
  induction h with
  | nil => exact .nil
  | build _ c hc o ih =>
    subst hc
    exact ih.trans (Compiler.course_buildIn hl ho (ih.keepsNamespaces ho hs) o)
  | resolve _ name ih => exact ih.trans (course_resolve ho (ih.keepsNamespaces ho hs) name)
  | meanwhile _ hu ih =>
    have hall := ih.trans (.of_spares hu)
    rwa [List.append_nil] at hall

end Loader

namespace Compiler

/-- **What the images of a build show.**  Every name that a build maps is owned, with all
bytes that were ever written to it, and its image shows those that were written until it
was first asked for: all of them exactly if the later ones are none.  The image lasts
until something is registered under the name again. -/
theorem image_of_built {parent : Host} {origin : Store} (hparent : parent.Apart origin) (id : Nat)
    {log : List Deed} {s : Store}
    (hs : (Loader.new parent (.image id) origin).1.History origin
      (Loader.new parent (.image id) origin).2 log s)
    (c : Compiler) (hc : c.loader = (Loader.new parent (.image id) origin).1) (o : VisitOrder)
    {built : List (String × Ref LoadedArtifact)} (hbuilt : (c.buildIn o s).outcome = .ok built)
    {name : String} {h : Ref LoadedArtifact} (hname : (name, h) ∈ built) :
    ∃ r, c.loader.artifact? name (c.buildIn o s).store = some r ∧
      ((c.buildIn o s).store.artifacts.get r).bytes = Log.written r (log ++ c.deeds o s) ∧
      ((c.buildIn o s).store.loaded.get h).image =
        Log.written r (Log.untilLoaded r (log ++ c.deeds o s)) ∧
      (((c.buildIn o s).store.loaded.get h).image =
          ((c.buildIn o s).store.artifacts.get r).bytes ↔
        Log.written r (Log.sinceLoaded r (log ++ c.deeds o s)) = []) ∧
      ∀ later t, c.loader.History origin (c.buildIn o s).store later t →
        (∀ a, .created name a ∉ later) →
        (c.loader.resolve name).attempt t = (.ok h, t) ∧
          (t.loaded.get h).image = ((c.buildIn o s).store.loaded.get h).image := by
  have ho : c.loader.MadeOver origin := hc ▸ Loader.madeOver_new hparent _
  have hl : c.loader.materializer = .image id := by rw [hc]; rfl
  have hnew := Loader.Recorded.new parent (.image id) origin
  have hkeep := Loader.keepsNamespaces_new parent (.image id) origin
  rw [← hc] at hs hnew
  have hbefore := hs.course hl ho hkeep
  have hrec := hnew.course hl hbefore
  rw [List.nil_append] at hrec
  have hkeep' := hbefore.keepsNamespaces ho hkeep
  have hbuild := course_buildIn hl ho hkeep' o
  obtain ⟨r, hr⟩ := Loader.holds_of_materializeAll (materializeAll_of_buildIn hbuilt).2 (name, h) hname
  have hafter := hrec.course hl hbuild
  obtain ⟨hbase, hlive⟩ := hafter.owned name r hr.owned
  have hbytes := (hafter.agrees r hbase hlive).bytes
  have himage := hafter.image_eq hr
  refine ⟨r, hr.owned, hbytes, himage, ?_, fun later t hlater hagain => ?_⟩
  · rw [himage, hbytes, Log.written_split r (log ++ c.deeds o s), List.self_eq_append_right]
  · have hcourse := hlater.course hl ho (hbuild.keepsNamespaces ho hkeep')
    exact ⟨(hr.course hl hafter hcourse hagain).resolve, hafter.image_course hl hr hcourse hagain⟩

/-- A toolchain that writes `x` and then `y` to an artifact, and may look it up in between. -/
def writing (looksUp : Bool) : Toolchain where
  name := "writing"
  compile _ _ := do
    let sink ← Interaction.outputFor .classOutput "B" .compiled none
    Interaction.write sink [120]
    if looksUp then
      let _ ← Interaction.find .classOutput "B"
    Interaction.write sink [121]
    return true

/-- A compiler with that toolchain over an empty store. -/
def writer (looksUp : Bool) : Compiler × Store :=
  Compiler.new (writing looksUp) Host.empty .none Directories.none.toStandardFiles (.image 0)
    Store.empty

/-- Its first build. -/
def firstBuild (looksUp : Bool) : BuildResult := (writer looksUp).1.build (writer looksUp).2

/-- The first build succeeds, whether its toolchain looks the name up or not. -/
theorem outcome_firstBuild (looksUp : Bool) :
    (firstBuild looksUp).outcome = .ok [("B", ⟨0⟩)] := by
  cases looksUp <;> exact eq_ok_of_toOption_eq_some (by decide +kernel)

/-- After the first build the loader owns its output. -/
theorem artifact?_firstBuild (looksUp : Bool) :
    (writer looksUp).1.loader.artifact? "B" (firstBuild looksUp).store = some ⟨0⟩ := by
  cases looksUp <;> decide +kernel

/-- The image is complete if the toolchain looks nothing up. -/
theorem image_of_built_firstBuild :
    ∃ h r, (firstBuild false).outcome = .ok [("B", h)] ∧
      (writer false).1.loader.artifact? "B" (firstBuild false).store = some r ∧
      ((firstBuild false).store.loaded.get h).image =
        ((firstBuild false).store.artifacts.get r).bytes := by
  obtain ⟨r, hr, -, -, hcomplete, -⟩ := image_of_built (Host.keeps_empty (Host.bearsLoading_apart _)) 0 .nil
    (writer false).1 rfl .increasing (outcome_firstBuild false) (List.mem_singleton_self _)
  refine ⟨⟨0⟩, r, outcome_firstBuild false, hr, hcomplete.2 ?_⟩
  obtain rfl := Option.some.inj (hr.symm.trans (artifact?_firstBuild false))
  decide +kernel

/-- **A toolchain that looks a name up between two writes** gets a build that succeeds with
an image in which the second one is missing. -/
theorem image_incomplete_of_early_lookup :
    ∃ h r, (firstBuild true).outcome = .ok [("B", h)] ∧
      (writer true).1.loader.artifact? "B" (firstBuild true).store = some r ∧
      ((firstBuild true).store.artifacts.get r).bytes = [120, 121] ∧
      ((firstBuild true).store.loaded.get h).image = [120] :=
  ⟨⟨0⟩, ⟨0⟩, outcome_firstBuild true, artifact?_firstBuild true, by decide +kernel, by decide +kernel⟩

end Compiler
end LiveBuild
