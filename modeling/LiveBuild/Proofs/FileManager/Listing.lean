/-
# What a listing is made of

A listing is the platform's answer.  On the class path, if compiled files are asked for, two parts
follow it (`additions`), and nothing is said twice:

| part | in it | in the order |
| --- | --- | --- |
| the platform's files | what the platform answers | of the platform |
| the loader's artifacts | each finished artifact of the kind that class paths hold that the loader owns directly in the package | of their names, strictly increasing |
| the host's artifacts | what the finder has for the package | of the finder |

A loader owns artifacts by name, and an artifact has a name of its own.  They are the same name in
every state that can be reached (`Loader.Reachable.name_eq`): whatever calls the managers of a
loader are asked for, whatever is registered with it, and whatever else happens in between, as long
as it leaves objects their names and the loader its owners.  So an artifact is owned once, and a
listing has it once (`list_exact`).
-/

import LiveBuild.Proofs.FileManager.Call
import LiveBuild.Proofs.FileManager.Visibility
import LiveBuild.Proofs.StandardFiles.Leaves
import LiveBuild.Proofs.Toolchain.Calls
import LiveBuild.Proofs.Toolchain.Given

namespace LiveBuild

open QualifiedName

namespace Loader

/-- A loader owns an artifact, under some name. -/
def Owns (l : Loader) (r : Ref Artifact) (s : Store) : Prop := ∃ name, l.artifact? name s = some r

/-- The states that a loader can be in: from the moment when it is new, its managers are called,
artifacts that were made are registered with it, and in between anything may happen that leaves
objects their names and the loader its owners. -/
inductive Reachable : Loader → Store → Prop
  | new (parent : Host) (materializer : Materializer) (origin : Store) :
      Reachable (Loader.new parent materializer origin).1 (Loader.new parent materializer origin).2
  | call {m : FileManager} {s : Store} (h : Reachable m.loader s) (c : FileManager.Call) :
      Reachable m.loader (c.perform m s)
  | register {l : Loader} {s : Store} (h : Reachable l s) {r : Ref Artifact}
      (hr : s.artifacts.Live r) : Reachable l (l.register r s).2
  | meanwhile {l : Loader} {s t : Store} (h : Reachable l s) (hst : s.KeepsIdentities t)
      (htable : l.table t = l.table s) : Reachable l t

/-- What a loader owns was made and has the name that it is owned under. -/
def OwnsByName (l : Loader) (s : Store) : Prop :=
  ∀ name r, l.artifact? name s = some r → s.artifacts.Live r ∧ (s.artifacts.get r).name = name

variable {l : Loader} {s t : Store}

namespace OwnsByName

/-- Everything stays under its own name while artifacts keep their names and owners stay. -/
theorem of_keepsIdentities (h : l.OwnsByName s) (hst : s.KeepsIdentities t)
    (htable : l.table t = l.table s) : l.OwnsByName t := by
  intro name r hr
  rw [artifact?, htable] at hr
  obtain ⟨hlive, hname⟩ := h name r hr
  obtain ⟨hlive', hname', -⟩ := hst.artifact r hlive
  exact ⟨hlive', hname'.trans hname⟩

/-- What is registered is owned under its own name. -/
theorem register (h : l.OwnsByName s) {r : Ref Artifact} (hr : s.artifacts.Live r) :
    l.OwnsByName (l.register r s).2 := by
  intro name r' hr'
  rw [artifact?_register] at hr'
  split at hr'
  · rename_i hname
    obtain rfl := Option.some.inj hr'
    exact ⟨hr, hname⟩
  · exact h name r' hr'

/-- A new output is owned under its own name. -/
theorem newOutput {m : FileManager} (h : m.loader.OwnsByName s) (name : String) (kind : Kind) :
    m.loader.OwnsByName (m.newOutput name kind s) := by
  intro n r hr
  rw [FileManager.artifact?_newOutput] at hr
  split at hr
  · rename_i hname
    obtain rfl := Option.some.inj hr
    have hget : (m.newOutput name kind s).artifacts.get (s.artifacts.alloc (.new name kind)).1 =
        .new name kind := Arena.get_alloc_self _ _
    rw [hget]
    exact ⟨Arena.live_alloc_self _ _, hname⟩
  · obtain ⟨hlive, hname⟩ := h n r hr
    obtain ⟨hlive', hname', -⟩ := (m.keepsIdentities_newOutput name kind s).artifact r hlive
    exact ⟨hlive', hname'.trans hname⟩

/-- **A call of a manager leaves its loader with artifacts of the right names.** -/
theorem perform {m : FileManager} (h : m.loader.OwnsByName s) (c : FileManager.Call) :
    m.loader.OwnsByName (c.perform m s) := by
  have hkeeps := m.keepsIdentities_perform s c
  cases c with
  | outputFor location name kind sibling =>
    rw [FileManager.Call.perform] at hkeeps ⊢
    rcases m.outputFor_cases location name kind sibling s with
      ⟨sink, -, hx⟩ | ⟨-, -, hx⟩ | ⟨-, -, hx⟩ <;> rw [hx] at hkeeps ⊢
    · exact h
    · exact h.of_keepsIdentities hkeeps rfl
    · exact h.newOutput name kind
  | write sink bytes =>
    refine h.of_keepsIdentities hkeeps ?_
    exact congrArg (·.get m.loader.owned) (Store.steady_write sink bytes s).namespaces
  | takeGenerated => exact h.of_keepsIdentities hkeeps rfl
  | finish =>
    refine h.of_keepsIdentities hkeeps ?_
    exact congrArg (·.get m.loader.owned) (Store.namespaces_finalizeAll s _)

end OwnsByName

namespace Reachable

/-- **In every state that can be reached, what a loader owns has the name that it is owned
under.** -/
theorem ownsByName (h : l.Reachable s) : l.OwnsByName s := by
  induction h with
  | new parent materializer origin =>
    intro name r hr
    rw [artifact?, table, Loader.new, Store.newNamespace, Arena.get_alloc_self,
      Table.find?_empty] at hr
    cases hr
  | call _ c ih => exact ih.perform c
  | register _ hr ih => exact ih.register hr
  | meanwhile _ hst htable ih => exact ih.of_keepsIdentities hst htable

/-- A new manager leaves its loader reachable. -/
theorem manager (h : l.Reachable s) (standard : StandardFiles) (finder : Finder) :
    (FileManager.new standard l finder s).1.loader.Reachable
      (FileManager.new standard l finder s).2 :=
  h.meanwhile (.of_eq rfl rfl) rfl

/-- **Whatever a manager is called for, its loader stays reachable.** -/
theorem performAll {m : FileManager} (h : m.loader.Reachable s) (calls : List FileManager.Call) :
    m.loader.Reachable (m.perform s calls) := by
  induction calls generalizing s with
  | nil => exact h
  | cons c calls ih => exact ih (h.call c)

/-- A loader owns an artifact exactly if it owns it under the artifact's name. -/
theorem owns_iff (h : l.Reachable s) {r : Ref Artifact} :
    l.Owns r s ↔ l.artifact? (s.artifacts.get r).name s = some r := by
  constructor
  · rintro ⟨name, hr⟩
    rwa [(h.ownsByName name r hr).2]
  · exact fun hr => ⟨_, hr⟩

end Reachable
end Loader

namespace BuildState

/-- A request that is no call registers nothing, if the parent of the loader does not. -/
theorem namespaces_answer {m : FileManager} {r : Request} (hparent : m.loader.parent.Steady)
    (b : BuildState) (h : r.call? = none) :
    (b.answer m r).2.store.namespaces = b.store.namespaces := by
  cases r with
  | outputFor location name kind sibling => cases h
  | write sink bytes => cases h
  | takeGenerated => cases h
  | find location name => exact (Host.keeps_loader Store.steady_materialize hparent name b.store).namespaces
  | execute program arguments stdin =>
    exact (Store.steady_execute program arguments stdin b.store).namespaces
  | list | binaryName | same | loaded | resources | read | unit | report | note => rfl

end BuildState

/-- **A toolchain can do what it wants:** what it leaves behind can be reached. -/
theorem Loader.Reachable.run {α : Type} {m : FileManager} {b : BuildState}
    (hdiscreet : m.loader.parent.Discreet) (hsteady : m.loader.parent.Steady)
    (h : m.loader.Reachable b.store) (x : Interaction α) :
    m.loader.Reachable (x.run m b).2.store := by
  refine Interaction.run_induction (P := fun b => m.loader.Reachable b.store) (fun b r hb => ?_) x h
  cases hc : r.call? with
  | none =>
    refine hb.meanwhile (b.sparesOutputs_answer hdiscreet hc).identities ?_
    exact congrArg (·.get m.loader.owned) (b.namespaces_answer hsteady hc)
  | some c =>
    rw [BuildState.store_answer_of_call? hc]
    exact hb.call c

namespace FileManager

variable {m : FileManager} {s : Store} {location : Location} {package : String}
  {kinds : List Kind} {recurse : Bool}

/-! ### Behind the platform's files -/

/-- What a listing has behind the platform's files. -/
def additions (m : FileManager) (location : Location) (package : String) (kinds : List Kind)
    (s : Store) : Except Error (List FileHandle) :=
  if location = .classPath ∧ .compiled ∈ kinds then
    (m.finder.find s.files package).map fun found =>
      (m.ownedIn package s).map .artifact ++ found.map .resolved
  else .ok []

/-- **A listing is the platform's answer with the additions behind it.** -/
theorem list_eq_bind (m : FileManager) (location : Location) (package : String) (kinds : List Kind)
    (recurse : Bool) (s : Store) :
    m.list location package kinds recurse s =
      (m.standard.list s.files location package kinds recurse).bind fun files =>
        (m.additions location package kinds s).map (files ++ ·) := by
  rw [list, additions]
  cases m.standard.list s.files location package kinds recurse with
  | error e => rfl
  | ok files =>
    by_cases h : location = .classPath ∧ .compiled ∈ kinds
    · simp only [if_pos h, Except.bind]
      cases m.finder.find s.files package with
      | error e => rfl
      | ok found => simp [Except.map]
    · simp [if_neg h, Except.bind, Except.map]

/-- **A listing succeeds exactly if both of its parts do,** the standard files first. -/
theorem list_eq_ok_iff {files : List FileHandle} :
    m.list location package kinds recurse s = .ok files ↔
      ∃ std rest, m.standard.list s.files location package kinds recurse = .ok std ∧
        m.additions location package kinds s = .ok rest ∧ files = std ++ rest := by
  rw [list_eq_bind]
  cases m.standard.list s.files location package kinds recurse with
  | error e => simp [Except.bind]
  | ok std =>
    cases m.additions location package kinds s with
    | error e => simp [Except.bind, Except.map]
    | ok rest => simp [Except.bind, Except.map, eq_comm]

/-- A listing fails with the error of its first part that fails. -/
theorem list_eq_error_iff {e : Error} :
    m.list location package kinds recurse s = .error e ↔
      m.standard.list s.files location package kinds recurse = .error e ∨
        (∃ std, m.standard.list s.files location package kinds recurse = .ok std) ∧
          m.additions location package kinds s = .error e := by
  rw [list_eq_bind]
  cases m.standard.list s.files location package kinds recurse with
  | error e => simp [Except.bind]
  | ok std => cases m.additions location package kinds s <;> simp [Except.bind, Except.map]

/-- Nothing is added but compiled artifacts on the class path. -/
theorem additions_of_not (h : ¬ (location = .classPath ∧ .compiled ∈ kinds)) :
    m.additions location package kinds s = .ok [] := if_neg h

/-- On the class path, what the loader owns is added, and then what the finder lists. -/
theorem additions_of_compiled (h : location = .classPath ∧ .compiled ∈ kinds) :
    m.additions location package kinds s = (m.finder.find s.files package).map fun found =>
      (m.ownedIn package s).map .artifact ++ found.map .resolved := if_pos h

/-- On the class path something is added exactly if the finder lists the package. -/
theorem additions_eq_ok_iff (h : location = .classPath ∧ .compiled ∈ kinds)
    {rest : List FileHandle} :
    m.additions location package kinds s = .ok rest ↔
      ∃ found, m.finder.find s.files package = .ok found ∧
        rest = (m.ownedIn package s).map .artifact ++ found.map .resolved := by
  rw [additions_of_compiled h]
  cases m.finder.find s.files package with
  | error e => simp [Except.map]
  | ok found => simp [Except.map, eq_comm]

/-- On the class path nothing but the finder fails. -/
theorem additions_eq_error_iff (h : location = .classPath ∧ .compiled ∈ kinds) {e : Error} :
    m.additions location package kinds s = .error e ↔
      m.finder.find s.files package = .error e := by
  rw [additions_of_compiled h]
  cases m.finder.find s.files package <;> simp [Except.map]

/-- Where there are no additions a listing is the platform's answer. -/
theorem list_of_not (h : ¬ (location = .classPath ∧ .compiled ∈ kinds)) :
    m.list location package kinds recurse s =
      m.standard.list s.files location package kinds recurse := by
  rw [list_eq_bind, additions_of_not h]
  cases m.standard.list s.files location package kinds recurse <;> simp [Except.bind, Except.map]

/-- **What is added of the loader's artifacts is finished.** -/
theorem isFinalized_of_mem_additions {rest : List FileHandle}
    (h : m.additions location package kinds s = .ok rest) {r : Ref Artifact}
    (hr : .artifact r ∈ rest) : (s.artifacts.get r).isFinalized = true := by
  by_cases hadd : location = .classPath ∧ .compiled ∈ kinds
  · obtain ⟨found, -, rfl⟩ := (additions_eq_ok_iff hadd).1 h
    rcases List.mem_append.1 hr with hr | hr
    · obtain ⟨r', hr', he⟩ := List.mem_map.1 hr
      obtain rfl := FileHandle.artifact.inj he
      obtain ⟨-, -, -, hlisted⟩ := mem_ownedIn_iff.1 hr'
      exact (Bool.and_eq_true_iff.1 hlisted).1
    · obtain ⟨t, -, he⟩ := List.mem_map.1 hr
      cases he
  · rw [additions_of_not hadd] at h
    obtain rfl := Except.ok.inj h
    cases hr

/-! ### What the loader owns in a package -/

/-- **What is listed of a loader:** the finished artifacts, of the kind that class paths hold, that
it owns and whose names are directly in the package. -/
theorem mem_ownedIn_iff_owns (h : m.loader.Reachable s) {r : Ref Artifact} :
    r ∈ m.ownedIn package s ↔ m.loader.Owns r s ∧ (s.artifacts.get r).isFinalized = true ∧
      (s.artifacts.get r).kind = .compiled ∧
      QualifiedName.package (s.artifacts.get r).name = package := by
  have hlisted : isListed s r = true ↔
      (s.artifacts.get r).isFinalized = true ∧ (s.artifacts.get r).kind = .compiled := by
    rw [isListed, Bool.and_eq_true, beq_iff_eq]
  rw [mem_ownedIn_iff]
  constructor
  · rintro ⟨key, hpackage, hr, hok⟩
    obtain ⟨hfinal, hkind⟩ := hlisted.1 hok
    refine ⟨⟨key, hr⟩, hfinal, hkind, ?_⟩
    rw [(h.ownsByName key r hr).2, hpackage]
  · rintro ⟨howns, hfinal, hkind, hpackage⟩
    exact ⟨_, hpackage, h.owns_iff.1 howns, hlisted.2 ⟨hfinal, hkind⟩⟩

/-- They come in strictly increasing order of their names. -/
theorem pairwise_ownedIn (h : m.loader.Reachable s) (package : String) :
    (m.ownedIn package s).Pairwise fun r t =>
      (s.artifacts.get r).name < (s.artifacts.get t).name := by
  refine List.Pairwise.filterMap _ (fun key key' hlt r hr t ht => ?_)
    ((m.loader.table s).pairwise_sorted.filter _)
  have hname := (h.ownsByName key r (Option.filter_eq_some_iff.1 hr).1).2
  have hname' := (h.ownsByName key' t (Option.filter_eq_some_iff.1 ht).1).2
  rwa [hname, hname']

/-- **A class path listing is exact.**  Where it has no additions it is the platform's answer,
whatever the loader, the finder and the host are.  Where it has them it is the platform's answer,
then each artifact once that the loader owns, finished and of the right kind, in the package, in
strictly increasing order of names, and then what the finder has; it fails as the platform or else
as the finder does.  What is still being written is never added. -/
theorem list_exact (m : FileManager) {s : Store} (h : m.loader.Reachable s) (location : Location)
    (package : String) (kinds : List Kind) (recurse : Bool) :
    (¬ (location = .classPath ∧ .compiled ∈ kinds) →
      ∀ (m' : FileManager) (s' : Store), m'.standard = m.standard → s'.files = s.files →
        m'.list location package kinds recurse s' =
          m.standard.list s.files location package kinds recurse) ∧
    (location = .classPath ∧ .compiled ∈ kinds →
      ∃ owned : List (Ref Artifact),
        (owned.Pairwise fun r t => (s.artifacts.get r).name < (s.artifacts.get t).name) ∧
        (∀ r, r ∈ owned ↔ m.loader.Owns r s ∧ (s.artifacts.get r).isFinalized = true ∧
          (s.artifacts.get r).kind = .compiled ∧
          QualifiedName.package (s.artifacts.get r).name = package) ∧
        (∀ files, m.list location package kinds recurse s = .ok files ↔
          ∃ std found, m.standard.list s.files location package kinds recurse = .ok std ∧
            m.finder.find s.files package = .ok found ∧
            files = std ++ (owned.map .artifact ++ found.map .resolved)) ∧
        ∀ e, m.list location package kinds recurse s = .error e ↔
          m.standard.list s.files location package kinds recurse = .error e ∨
            (∃ std, m.standard.list s.files location package kinds recurse = .ok std) ∧
              m.finder.find s.files package = .error e) ∧
    ∀ files, m.list location package kinds recurse s = .ok files → ∀ r, .artifact r ∈ files →
      (s.artifacts.get r).isFinalized = true ∨
        ∃ std, m.standard.list s.files location package kinds recurse = .ok std ∧
          .artifact r ∈ std := by
  refine ⟨fun hnot m' s' hstandard hfiles => ?_, fun hadd => ?_, fun files hfiles r hr => ?_⟩
  · rw [list_of_not hnot, hstandard, hfiles]
  · refine ⟨m.ownedIn package s, pairwise_ownedIn h package, fun r => mem_ownedIn_iff_owns h,
      fun files => ?_, fun e => ?_⟩
    · simp only [list_eq_ok_iff, additions_eq_ok_iff hadd]
      constructor
      · rintro ⟨std, rest, hstd, ⟨found, hfound, rfl⟩, rfl⟩
        exact ⟨std, found, hstd, hfound, rfl⟩
      · rintro ⟨std, found, hstd, hfound, rfl⟩
        exact ⟨std, _, hstd, ⟨found, hfound, rfl⟩, rfl⟩
    · rw [list_eq_error_iff, additions_eq_error_iff hadd]
  · obtain ⟨std, rest, hstd, hrest, rfl⟩ := list_eq_ok_iff.1 hfiles
    rcases List.mem_append.1 hr with hr | hr
    · exact .inr ⟨std, hstd, hr⟩
    · exact .inl (isFinalized_of_mem_additions hrest hr)

/-- A loader over nothing. -/
def loneLoader : Loader × Store := Loader.new .empty (.image 0) default

/-- A manager without any files of the platform. -/
def loneManager : FileManager × Store :=
  FileManager.new Directories.none.toStandardFiles loneLoader.1 ⟨.empty, defaultExtension⟩ loneLoader.2

/-- The state in which it has finished what it was asked for at first, and was asked for more. -/
def underway : Store :=
  loneManager.1.perform loneManager.2 [.outputFor .classOutput "lib.Core" .compiled none,
    .outputFor .classOutput "lib.App" .compiled none,
    .outputFor .classOutput "lib.Page" .html none,
    .outputFor .classOutput "lib.in.Deep" .compiled none, .finish,
    .outputFor .classOutput "lib.Late" .compiled none]

/-- Of what the loader owns, the two finished artifacts in the package are listed, in order of
their names; the page, what is below the package and what is still being written are not. -/
theorem list_exact_underway :
    ∃ owned : List (Ref Artifact),
      loneManager.1.list .classPath "lib" [.compiled] false underway =
        .ok (owned.map FileHandle.artifact) ∧
      (owned.Pairwise fun r t =>
        (underway.artifacts.get r).name < (underway.artifacts.get t).name) ∧
      ⟨0⟩ ∈ owned ∧ ⟨1⟩ ∈ owned ∧ ⟨2⟩ ∉ owned ∧ ⟨3⟩ ∉ owned ∧ ⟨4⟩ ∉ owned := by
  have hnew : loneLoader.1.Reachable loneLoader.2 := .new .empty (.image 0) default
  have hreachable : loneManager.1.loader.Reachable underway := (hnew.manager _ _).performAll _
  obtain ⟨-, hadd, -⟩ := list_exact loneManager.1 hreachable .classPath "lib" [.compiled] false
  obtain ⟨owned, hpairwise, hmem, hok, -⟩ := hadd (by decide)
  refine ⟨owned, (hok _).2 ⟨[], [], rfl, rfl, by simp⟩, hpairwise, (hmem _).2 ?_, (hmem _).2 ?_,
    fun h => ?_, fun h => ?_, fun h => ?_⟩
  · exact ⟨⟨"lib.Core", by decide +kernel⟩, by decide +kernel, by decide +kernel, by decide +kernel⟩
  · exact ⟨⟨"lib.App", by decide +kernel⟩, by decide +kernel, by decide +kernel, by decide +kernel⟩
  · exact absurd ((hmem _).1 h).2.2.1 (by decide +kernel)
  · exact absurd ((hmem _).1 h).2.2.2 (by decide +kernel)
  · exact absurd ((hmem _).1 h).2.1 (by decide +kernel)

/-- The platform's directories have no artifact in memory, so everything that is listed over them
is finished. -/
theorem isFinalized_of_mem_list {d : Directories} (hd : m.standard = d.toStandardFiles)
    {files : List FileHandle} (hfiles : m.list location package kinds recurse s = .ok files)
    {r : Ref Artifact} (hr : .artifact r ∈ files) : (s.artifacts.get r).isFinalized = true := by
  obtain ⟨std, rest, hstd, hrest, rfl⟩ := list_eq_ok_iff.1 hfiles
  rcases List.mem_append.1 hr with hr | hr
  · rw [hd] at hstd
    exact absurd hr (Directories.artifact_notMem_list hstd r)
  · exact isFinalized_of_mem_additions hrest hr

end FileManager
end LiveBuild
