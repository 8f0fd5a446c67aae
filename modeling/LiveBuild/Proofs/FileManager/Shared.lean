/-
# Managers of one loader

Any number of file managers may have one loader, and artifacts may be registered with it
directly as well.  A run of all of them (`Run`) is written down in a log, the latest entry
first: which managers were made, what each was asked for, which of them was finished, and what
was registered.

An artifact is made and registered by a manager's first request for its name.  So what the
managers have handed out and what the loader owns may differ, if a name is asked for by two
managers or is registered again, but both can be read off the log:

| at any time | is |
| --- | --- |
| the sink of an output | what its manager gave at first (`Tables.outputFor_again`) |
| one sink of two requests | for one output of one manager (`Tables.sink_eq_iff`) |
| the owner of a name | the artifact of the latest registration (`registrations`) |
| what a manager finishes | the artifacts it was asked for, and no other (`Tables.finish_iff`) |

A request that makes something is taken apart once (`Makes`); from that follows what each step
of a run keeps, and what a whole run does (`of_run`).
-/

import LiveBuild.Proofs.FileManager.Call
import LiveBuild.StandardFiles.Directories

namespace LiveBuild

/-- The object that a sink writes to was made. -/
def Sink.Live (s : Store) : Sink → Prop
  | .artifact a => s.artifacts.Live a
  | .source u => s.units.Live u

/-- The values of a table are what is found in it. -/
theorem Table.mem_values_iff {κ α : Type} [DecidableEq κ] (t : Table κ α) (v : α) :
    v ∈ t.values ↔ ∃ k, t.find? k = some v := by
  simp only [values, List.mem_map, find?_eq_some_iff, Prod.exists]
  simp

namespace FileManager

/-- An output that a manager was asked for, and the sink that it gave. -/
structure OutputRequest where
  manager : FileManager
  name : String
  kind : Kind
  sink : Sink

/-- Requests for one output: to one manager, under one name, and both or none for a source. -/
def OutputRequest.SameOutput (q q' : OutputRequest) : Prop :=
  q.manager = q'.manager ∧ q.name = q'.name ∧ (q.kind = .source ↔ q'.kind = .source)

/-- What is written down of a run. -/
inductive Entry where
  | opened (m : FileManager)
  | asked (q : OutputRequest)
  | finished (m : FileManager)
  | registered (name : String) (r : Ref Artifact)

/-- Whether an entry is a manager's request for an artifact of a name. -/
def Entry.isRequest (m : FileManager) (name : String) : Entry → Bool
  | .asked q => q.manager.outputs = m.outputs ∧ q.name = name ∧ q.kind ≠ .source
  | .opened _ | .finished _ | .registered .. => false

/-- What was registered under which name, the latest first: an artifact by itself, or by a
manager's first request for its name. -/
def registrations : List Entry → List (String × Ref Artifact)
  | [] => []
  | .registered name r :: log => (name, r) :: registrations log
  | .asked ⟨m, name, _, .artifact r⟩ :: log =>
    if log.any (Entry.isRequest m name) then registrations log else (name, r) :: registrations log
  | .asked ⟨_, _, _, .source _⟩ :: log => registrations log
  | .opened _ :: log => registrations log
  | .finished _ :: log => registrations log

/-- The managers that were made. -/
def managers : List Entry → List FileManager
  | [] => []
  | .opened m :: log => m :: managers log
  | .asked _ :: log => managers log
  | .finished _ :: log => managers log
  | .registered .. :: log => managers log

/-- A manager made an artifact: it gave it for a request. -/
def Created (log : List Entry) (m : FileManager) (r : Ref Artifact) : Prop :=
  ∃ name kind, .asked ⟨m, name, kind, .artifact r⟩ ∈ log

/-- Something that no manager of a log notices: identities are kept, and so is what each of
them was asked for. -/
structure Unnoticed (log : List Entry) (s t : Store) : Prop where
  identities : s.KeepsIdentities t
  live : ∀ o, s.outputs.Live o → t.outputs.Live o
  asked : ∀ m, .opened m ∈ log → m.asked t = m.asked s

/-- That an artifact is made is noticed by no manager. -/
theorem Unnoticed.newArtifact (log : List Entry) (a : Artifact) (s : Store) :
    Unnoticed log s (s.newArtifact a).2 :=
  ⟨.of_continues rfl (.of_newArtifact a rfl rfl), fun _ ho => ho, fun _ _ => rfl⟩

/-- A run of managers of one loader, with its log.  In between anything may happen that they do
not notice and that changes no owner of a name: artifacts are made and written, names are
resolved, builds with other loaders run. -/
inductive Run (l : Loader) (origin : Store) : List Entry → Store → Prop
  | start : Run l origin [] origin
  | new {log : List Entry} {s : Store} (h : Run l origin log s) (standard : StandardFiles)
      (finder : Finder) :
      Run l origin (.opened (FileManager.new standard l finder s).1 :: log)
        (FileManager.new standard l finder s).2
  | outputFor {log : List Entry} {s : Store} (h : Run l origin log s) {m : FileManager}
      (hm : .opened m ∈ log) (location : Location) (name : String) (kind : Kind)
      (sibling : Option FileHandle) :
      Run l origin (.asked ⟨m, name, kind, (m.outputFor location name kind sibling s).1⟩ :: log)
        (m.outputFor location name kind sibling s).2
  | finish {log : List Entry} {s : Store} (h : Run l origin log s) {m : FileManager}
      (hm : .opened m ∈ log) : Run l origin (.finished m :: log) (m.finish s)
  | register {log : List Entry} {s : Store} (h : Run l origin log s) {r : Ref Artifact}
      (hr : s.artifacts.Live r) :
      Run l origin (.registered (s.artifacts.get r).name r :: log) (l.register r s).2
  | meanwhile {log : List Entry} {s t : Store} (h : Run l origin log s)
      (hst : Unnoticed log s t) (htable : l.table t = l.table s) : Run l origin log t

variable {m m' : FileManager} {l : Loader} {log log' : List Entry} {s t origin : Store}
  {name : String} {kind kind' : Kind} {sink : Sink} {q q' : OutputRequest}

/-! ### What a new output is -/

/-- Whether a sink was given is a question to what was asked for. -/
theorem sink?_of_asked (h : m.asked t = m.asked s) (name : String) (kind : Kind) :
    m.sink? name kind t = m.sink? name kind s := by
  rw [sink?, sink?, h]

/-- Of the kind it matters whether it is a source. -/
theorem sink?_of_kind (h : kind = .source ↔ kind' = .source) (m : FileManager) (name : String)
    (s : Store) : m.sink? name kind s = m.sink? name kind' s := by
  by_cases hk : kind = .source
  · rw [hk, h.1 hk]
  · rw [sink?, sink?, if_neg hk, if_neg (mt h.2 hk)]

/-- What was given was made. -/
theorem Named.live_sink (h : m.Named s) (hsink : m.sink? name kind s = some sink) :
    sink.Live s := by
  unfold sink? at hsink
  split at hsink
  · obtain ⟨u, hu, rfl⟩ := Option.map_eq_some_iff.1 hsink
    exact (h.source name u hu).1
  · obtain ⟨a, ha, rfl⟩ := Option.map_eq_some_iff.1 hsink
    exact (h.artifact name a ha).1

/-- **What a request does that makes a new output:** its sink is none of those there were, it is
what its manager gives from now on, and an artifact owns its name. -/
structure Makes (m : FileManager) (name : String) (kind : Kind) (sink : Sink) (s t : Store) :
    Prop where
  identities : s.KeepsIdentities t
  named : m.Named s → m.Named t
  isSource : (∃ u, sink = .source u) ↔ kind = .source
  fresh : ¬ sink.Live s
  given : ∀ n k, m.sink? n k t =
    if name = n ∧ (kind = .source ↔ k = .source) then some sink else m.sink? n k s
  live : ∀ o, s.outputs.Live o → t.outputs.Live o
  others : ∀ m' : FileManager, m'.outputs ≠ m.outputs → m'.asked t = m'.asked s
  owner : ∀ r, sink = .artifact r → ∀ n,
    m.loader.artifact? n t = if name = n then some r else m.loader.artifact? n s
  ownerOfSource : ∀ u, sink = .source u → ∀ n, m.loader.artifact? n t = m.loader.artifact? n s

/-- **A new source is made:** it is a new unit, which this manager alone gives. -/
theorem makes_newSource (m : FileManager) (name : String) (s : Store) :
    m.Makes name .source (.source (s.units.alloc (.pending name)).1) s (m.newSource name s) where
  identities := m.keepsIdentities_newSource name s
  named h := h.newSource name
  isSource := iff_of_true ⟨_, rfl⟩ rfl
  fresh hlive := Arena.alloc_ne_of_live _ hlive rfl
  given n k := by
    by_cases hk : k = .source
    · subst hk
      simp only [sink?, if_true, asked_newSource, Table.find?_insert, and_true]
      split <;> rfl
    · simp only [sink?, asked_newSource, hk, iff_false, not_true_eq_false, and_false, if_false]
  live _ ho := ho
  others m' hne := Arena.get_modify_of_ne _ _ hne.symm
  owner := by rintro r ⟨⟩
  ownerOfSource _ _ _ := rfl

/-- **A new artifact is made:** it is registered, and this manager alone gives it. -/
theorem makes_newOutput (m : FileManager) (name : String) (hk : kind ≠ .source) (s : Store) :
    m.Makes name kind (.artifact (s.artifacts.alloc (.new name kind)).1) s
      (m.newOutput name kind s) where
  identities := m.keepsIdentities_newOutput name kind s
  named h := h.newOutput name kind
  isSource := iff_of_false (by simp) hk
  fresh hlive := Arena.alloc_ne_of_live _ hlive rfl
  given n k := by
    by_cases hk' : k = .source
    · simp only [sink?, hk', if_true, asked_newOutput, hk, iff_true, and_false, if_false]
    · simp only [sink?, find?_artifacts_newOutput, hk, hk', and_true, if_false]
      split <;> rfl
  live _ ho := ho
  others m' hne := Arena.get_modify_of_ne _ _ hne.symm
  owner := by
    rintro _ ⟨⟩ n
    exact m.artifact?_newOutput name kind s n
  ownerOfSource := by rintro u ⟨⟩

/-- **A request gives what was given before, or it makes a new output.** -/
theorem outputFor_again_or_makes (m : FileManager) (location : Location) (name : String)
    (kind : Kind) (sibling : Option FileHandle) (s : Store) :
    (∃ sink, m.sink? name kind s = some sink ∧
        m.outputFor location name kind sibling s = (sink, s)) ∨
      m.sink? name kind s = none ∧
        m.Makes name kind (m.outputFor location name kind sibling s).1 s
          (m.outputFor location name kind sibling s).2 := by
  rcases m.outputFor_cases location name kind sibling s with
    hagain | ⟨rfl, hnew, hx⟩ | ⟨hk, hnew, hx⟩
  · exact .inl hagain
  · rw [hx]
    exact .inr ⟨hnew, m.makes_newSource name s⟩
  · rw [hx]
    exact .inr ⟨hnew, m.makes_newOutput name hk s⟩

namespace Makes

variable {m' : FileManager} {n : String} {k : Kind} {sink' : Sink}

/-- What was given before is still given. -/
theorem given_before (h : m.Makes name kind sink s t) (hnew : m.sink? name kind s = none)
    (hm' : m'.outputs = m.outputs → m' = m) (hgiven : m'.sink? n k s = some sink') :
    m'.sink? n k t = some sink' := by
  by_cases he : m'.outputs = m.outputs
  · obtain rfl := hm' he
    rw [h.given, if_neg, hgiven]
    rintro ⟨rfl, hk⟩
    rw [sink?_of_kind hk, hgiven] at hnew
    cases hnew
  · rw [sink?_of_asked (h.others m' he), hgiven]

/-- What is given now is the new sink, or it was given before. -/
theorem given_cases (h : m.Makes name kind sink s t) (hm' : m'.outputs = m.outputs → m' = m)
    (hgiven : m'.sink? n k t = some sink') :
    (m' = m ∧ name = n ∧ (kind = .source ↔ k = .source) ∧ sink = sink') ∨
      m'.sink? n k s = some sink' := by
  by_cases he : m'.outputs = m.outputs
  · obtain rfl := hm' he
    rw [h.given] at hgiven
    split at hgiven
    · rename_i hsame
      exact .inl ⟨rfl, hsame.1, hsame.2, Option.some.inj hgiven⟩
    · exact .inr hgiven
  · rw [sink?_of_asked (h.others m' he)] at hgiven
    exact .inr hgiven

end Makes

/-! ### What managers have given -/

/-- A manager was made before the last entry or by it. -/
theorem opened_mem_cons : .opened m' ∈ Entry.opened m :: log ↔ m' = m ∨ .opened m' ∈ log := by
  simp

/-- An output was asked for before the last entry or by it. -/
theorem asked_mem_cons : .asked q' ∈ Entry.asked q :: log ↔ q' = q ∨ .asked q' ∈ log := by
  simp

/-- What managers have given is what is written down, each for itself. -/
structure Tables (l : Loader) (log : List Entry) (s : Store) : Prop where
  loader : ∀ m, .opened m ∈ log → m.loader = l
  live : ∀ m, .opened m ∈ log → s.outputs.Live m.outputs
  named : ∀ m, .opened m ∈ log → m.Named s
  single : ∀ m m', .opened m ∈ log → .opened m' ∈ log → m.outputs = m'.outputs → m = m'
  opened : ∀ q, .asked q ∈ log → .opened q.manager ∈ log
  given : ∀ q, .asked q ∈ log → q.manager.sink? q.name q.kind s = some q.sink
  asked : ∀ m name kind sink, .opened m ∈ log → m.sink? name kind s = some sink →
    ∃ kind', (kind' = .source ↔ kind = .source) ∧ .asked ⟨m, name, kind', sink⟩ ∈ log
  apart : ∀ q q', .asked q ∈ log → .asked q' ∈ log → q.sink = q'.sink → q.manager = q'.manager

namespace Tables

/-- In the beginning no manager was made, so none gave anything. -/
theorem start (l : Loader) (s : Store) : Tables l [] s := by
  constructor <;> simp

/-- What is not noticed, and writes down no manager and no request, changes nothing here. -/
theorem unnoticed (h : Tables l log s) (hst : Unnoticed log s t)
    (hopened : ∀ m, .opened m ∈ log' ↔ .opened m ∈ log)
    (hasked : ∀ q, .asked q ∈ log' ↔ .asked q ∈ log) : Tables l log' t where
  loader m hm := h.loader m ((hopened m).1 hm)
  live m hm := hst.live _ (h.live m ((hopened m).1 hm))
  named m hm := by
    have hm' := (hopened m).1 hm
    have hsame := hst.asked m hm'
    exact (h.named m hm').of_keepsIdentities hst.identities (by rw [hsame]) (by rw [hsame])
  single m m' hm hm' := h.single m m' ((hopened m).1 hm) ((hopened m').1 hm')
  opened q hq := (hopened _).2 (h.opened q ((hasked q).1 hq))
  given q hq := by
    have hq' := (hasked q).1 hq
    rw [sink?_of_asked (hst.asked _ (h.opened q hq'))]
    exact h.given q hq'
  asked m name kind sink hm hsink := by
    have hm' := (hopened m).1 hm
    rw [sink?_of_asked (hst.asked m hm')] at hsink
    obtain ⟨kind', hk, hq⟩ := h.asked m name kind sink hm' hsink
    exact ⟨kind', hk, (hasked _).2 hq⟩
  apart q q' hq hq' := h.apart q q' ((hasked q).1 hq) ((hasked q').1 hq')

/-- A manager that was asked for nothing joins the others. -/
theorem joined (h : Tables l log s) (hloader : m.loader = l) (hlive : s.outputs.Live m.outputs)
    (hasked : m.asked s = .none) (hfresh : ∀ m', .opened m' ∈ log → m.outputs ≠ m'.outputs) :
    Tables l (.opened m :: log) s where
  loader := by simpa [hloader] using h.loader
  live := by simpa [hlive] using h.live
  named := by
    have hnamed : m.Named s := by constructor <;> simp [hasked, Outputs.none]
    simpa [hnamed] using h.named
  single m₁ m₂ h₁ h₂ he := by
    rcases opened_mem_cons.1 h₁ with he₁ | h₁ <;> rcases opened_mem_cons.1 h₂ with he₂ | h₂
    · rw [he₁, he₂]
    · rw [he₁] at he
      exact absurd he (hfresh m₂ h₂)
    · rw [he₂] at he
      exact absurd he.symm (hfresh m₁ h₁)
    · exact h.single m₁ m₂ h₁ h₂ he
  opened := by simpa using fun q hq => Or.inr (h.opened q hq)
  given := by simpa using h.given
  asked m' name kind sink hm' hsink := by
    rcases opened_mem_cons.1 hm' with rfl | hm'
    · simp [sink?, hasked, Outputs.none] at hsink
    · obtain ⟨kind', hk, hq⟩ := h.asked m' name kind sink hm' hsink
      exact ⟨kind', hk, List.mem_cons_of_mem _ hq⟩
  apart := by simpa using h.apart

/-- A manager is made. -/
theorem new (h : Tables l log s) (standard : StandardFiles) (finder : Finder) :
    Tables l (.opened (FileManager.new standard l finder s).1 :: log)
      (FileManager.new standard l finder s).2 := by
  have hunnoticed : Unnoticed log s (FileManager.new standard l finder s).2 :=
    ⟨.of_eq rfl rfl, fun _ => Arena.live_alloc_of_live Outputs.none,
      fun m hm => Arena.get_alloc_of_live Outputs.none (h.live m hm)⟩
  have hold := h.unnoticed hunnoticed (fun _ => Iff.rfl) (fun _ => Iff.rfl)
  exact hold.joined rfl (Arena.live_alloc_self _ _) (asked_new standard l finder s)
    fun m hm => Arena.alloc_ne_of_live Outputs.none (h.live m hm)

/-- A sink that was given is given by no other manager. -/
theorem eq_manager (h : Tables l log s) (hm : .opened m ∈ log)
    (hsink : m.sink? name kind s = some q.sink) (hq : .asked q ∈ log) : m = q.manager := by
  obtain ⟨kind', -, hbefore⟩ := h.asked m name kind q.sink hm hsink
  exact h.apart ⟨m, name, kind', q.sink⟩ q hbefore hq rfl

/-- A request that is given what was given before. -/
theorem again (h : Tables l log s) (hm : .opened m ∈ log)
    (hsink : m.sink? name kind s = some sink) :
    Tables l (.asked ⟨m, name, kind, sink⟩ :: log) s where
  loader := by simpa using h.loader
  live := by simpa using h.live
  named := by simpa using h.named
  single := by simpa using h.single
  opened := by simpa [hm] using h.opened
  given := by simpa [hsink] using h.given
  asked m' name' kind' sink' hm' hsink' := by
    obtain ⟨kind'', hk, hq⟩ := h.asked m' name' kind' sink' (by simpa using hm') hsink'
    exact ⟨kind'', hk, List.mem_cons_of_mem _ hq⟩
  apart q q' hq hq' he := by
    rcases asked_mem_cons.1 hq with heq | hq <;> rcases asked_mem_cons.1 hq' with heq' | hq'
    · rw [heq, heq']
    · rw [heq] at he ⊢
      exact h.eq_manager hm (hsink.trans (congrArg some he)) hq'
    · rw [heq'] at he ⊢
      exact (h.eq_manager hm (hsink.trans (congrArg some he.symm)) hq).symm
    · exact h.apart q q' hq hq' he

/-- A request that makes a new output. -/
theorem makes (h : Tables l log s) (hm : .opened m ∈ log) (hnew : m.sink? name kind s = none)
    (hmakes : m.Makes name kind sink s t) :
    Tables l (.asked ⟨m, name, kind, sink⟩ :: log) t where
  loader := by simpa using h.loader
  live := by simpa using fun m' hm' => hmakes.live _ (h.live m' hm')
  named m' hm' := by
    have hm' : .opened m' ∈ log := by simpa using hm'
    by_cases he : m'.outputs = m.outputs
    · rw [h.single m' m hm' hm he]
      exact hmakes.named (h.named m hm)
    · have hsame := hmakes.others m' he
      exact (h.named m' hm').of_keepsIdentities hmakes.identities (by rw [hsame]) (by rw [hsame])
  single := by simpa using h.single
  opened := by simpa [hm] using h.opened
  given q hq := by
    rcases asked_mem_cons.1 hq with rfl | hq
    · exact (hmakes.given name kind).trans (if_pos ⟨rfl, Iff.rfl⟩)
    · exact hmakes.given_before hnew (h.single _ m (h.opened q hq) hm) (h.given q hq)
  asked m' name' kind' sink' hm' hsink' := by
    have hm' : .opened m' ∈ log := by simpa using hm'
    rcases hmakes.given_cases (h.single m' m hm' hm) hsink' with ⟨rfl, rfl, hk, rfl⟩ | hbefore
    · exact ⟨kind, hk, List.mem_cons_self⟩
    · obtain ⟨kind'', hk, hq⟩ := h.asked m' name' kind' sink' hm' hbefore
      exact ⟨kind'', hk, List.mem_cons_of_mem _ hq⟩
  apart q q' hq hq' he := by
    -- a sink that was given before was made before
    have hold : ∀ q, .asked q ∈ log → q.sink ≠ sink := by
      intro q hq he
      have hlive := (h.named _ (h.opened q hq)).live_sink (h.given q hq)
      rw [he] at hlive
      exact hmakes.fresh hlive
    rcases asked_mem_cons.1 hq with heq | hq <;> rcases asked_mem_cons.1 hq' with heq' | hq'
    · rw [heq, heq']
    · rw [heq] at he
      exact absurd he.symm (hold q' hq')
    · rw [heq'] at he
      exact absurd he (hold q hq)
    · exact h.apart q q' hq hq' he

/-- **Two requests have one sink** exactly if they are for one output. -/
theorem sink_eq_iff (h : Tables l log s) (hq : .asked q ∈ log) (hq' : .asked q' ∈ log) :
    q.sink = q'.sink ↔ q.SameOutput q' := by
  have hgiven := h.given q hq
  have hgiven' := h.given q' hq'
  constructor
  · intro he
    have hname := (h.named _ (h.opened q hq)).name_sink hgiven
    have hname' := (h.named _ (h.opened q' hq')).name_sink hgiven'
    refine ⟨h.apart q q' hq hq' he, ?_, ?_⟩
    · rw [← hname, ← hname', he]
    · rw [← exists_source_iff hgiven, ← exists_source_iff hgiven', he]
  · rintro ⟨hm, hname, hk⟩
    rw [hm, hname, sink?_of_kind hk, hgiven'] at hgiven
    exact (Option.some.inj hgiven).symm

/-- **What was given is given again,** and nothing happens. -/
theorem outputFor_again (h : Tables l log s) (hq : .asked q ∈ log)
    (hk : kind = .source ↔ q.kind = .source) (location : Location) (sibling : Option FileHandle) :
    q.manager.outputFor location q.name kind sibling s = (q.sink, s) := by
  refine outputFor_of_sink? ?_ location sibling
  rw [sink?_of_kind hk, h.given q hq]

/-- The artifacts of a manager are those that it gave. -/
theorem mem_artifacts_iff (h : Tables l log s) (hm : .opened m ∈ log) (r : Ref Artifact) :
    r ∈ m.artifacts s ↔ Created log m r := by
  rw [artifacts, Table.mem_values_iff]
  constructor
  · rintro ⟨name, hr⟩
    have hsink : m.sink? name .compiled s = some (.artifact r) := by
      rw [sink?, if_neg (by decide), hr]
      rfl
    obtain ⟨kind, -, hq⟩ := h.asked m name .compiled _ hm hsink
    exact ⟨name, kind, hq⟩
  · rintro ⟨name, kind, hq⟩
    have hgiven := h.given _ hq
    rw [sink?] at hgiven
    split at hgiven
    · obtain ⟨u, -, hu⟩ := Option.map_eq_some_iff.1 hgiven
      cases hu
    · obtain ⟨a, ha, he⟩ := Option.map_eq_some_iff.1 hgiven
      obtain rfl := Sink.artifact.inj he
      exact ⟨name, ha⟩

/-- **What a manager finishes:** the artifacts that it gave, and nothing else is changed. -/
theorem finish_iff (h : Tables l log s) (hm : .opened m ∈ log) :
    { m.finish s with artifacts := s.artifacts } = s ∧
      (∀ r, Created log m r → (m.finish s).artifacts.get r = (s.artifacts.get r).finalize ∧
        ((m.finish s).artifacts.get r).isFinalized = true) ∧
      ∀ r, ¬ Created log m r → (m.finish s).artifacts.get r = s.artifacts.get r := by
  refine ⟨?_, fun r hr => ?_, fun r hr => ?_⟩
  · rw [finish, Store.finalizeAll_eq]
  · rw [finish, Store.get_finalizeAll, if_pos ((h.mem_artifacts_iff hm r).2 hr)]
    exact ⟨rfl, rfl⟩
  · rw [finish, Store.get_finalizeAll, if_neg (mt (h.mem_artifacts_iff hm r).1 hr)]

end Tables

/-! ### What a loader owns -/

/-- To ask again registers nothing. -/
theorem registrations_again (h : Tables l log s) (hm : .opened m ∈ log)
    (hsink : m.sink? name kind s = some sink) :
    registrations (.asked ⟨m, name, kind, sink⟩ :: log) = registrations log := by
  cases sink with
  | source u => rfl
  | artifact r =>
    obtain ⟨kind', hk, hq⟩ := h.asked m name kind _ hm hsink
    have hkind : kind' ≠ .source := by
      rw [Ne, hk, ← exists_source_iff hsink]
      simp
    have hbefore : log.any (Entry.isRequest m name) = true :=
      List.any_eq_true.2 ⟨_, hq, by simp [Entry.isRequest, hkind]⟩
    rw [registrations, if_pos hbefore]

/-- A manager's first request for an artifact registers it. -/
theorem registrations_makes (h : Tables l log s) (hm : .opened m ∈ log)
    (hnew : m.sink? name kind s = none) (hk : kind ≠ .source) (r : Ref Artifact) :
    registrations (.asked ⟨m, name, kind, .artifact r⟩ :: log) =
      (name, r) :: registrations log := by
  have hfirst : ¬ log.any (Entry.isRequest m name) = true := by
    intro hany
    obtain ⟨e, he, hrequest⟩ := List.any_eq_true.1 hany
    cases e with
    | asked q =>
      obtain ⟨houtputs, hname, hkind⟩ := of_decide_eq_true hrequest
      have hgiven := h.given q he
      rw [h.single _ m (h.opened q he) hm houtputs, hname,
        sink?_of_kind (iff_of_false hkind hk), hnew] at hgiven
      cases hgiven
    | opened _ | finished _ | registered _ _ => cases hrequest
  rw [registrations, if_neg hfirst]

/-- The managers of a log are those that were made in it. -/
theorem mem_managers_iff : m ∈ managers log ↔ .opened m ∈ log := by
  induction log with
  | nil => simp [managers]
  | cons e log ih => cases e <;> simp [managers, ih]

/-- Managers are different, they have given, and their loader owns, what is written down. -/
structure Recorded (l : Loader) (log : List Entry) (s : Store) : Prop where
  nodup : (managers log).Nodup
  tables : Tables l log s
  owner : ∀ name, l.artifact? name s = Table.lookup name (registrations log)

namespace Recorded

/-- The log stays true when a manager is made. -/
theorem new (h : Recorded l log s) (standard : StandardFiles) (finder : Finder) :
    Recorded l (.opened (FileManager.new standard l finder s).1 :: log)
      (FileManager.new standard l finder s).2 := by
  refine ⟨List.nodup_cons.2 ⟨fun hmem => ?_, h.nodup⟩, h.tables.new standard finder, h.owner⟩
  have hlive := h.tables.live _ (mem_managers_iff.1 hmem)
  exact Arena.alloc_ne_of_live Outputs.none hlive rfl

/-- **The log stays true when a manager is asked for an output.** -/
theorem outputFor (h : Recorded l log s) (hm : .opened m ∈ log) (location : Location)
    (name : String) (kind : Kind) (sibling : Option FileHandle) :
    Recorded l (.asked ⟨m, name, kind, (m.outputFor location name kind sibling s).1⟩ :: log)
      (m.outputFor location name kind sibling s).2 := by
  rcases m.outputFor_again_or_makes location name kind sibling s with
    ⟨sink, hsink, hx⟩ | ⟨hnew, hmakes⟩
  · rw [hx]
    refine ⟨h.nodup, h.tables.again hm hsink, fun n => ?_⟩
    rw [registrations_again h.tables hm hsink, h.owner]
  · refine ⟨h.nodup, h.tables.makes hm hnew hmakes, fun n => ?_⟩
    rw [← h.tables.loader m hm]
    have hbefore := h.owner n
    rw [← h.tables.loader m hm] at hbefore
    cases hsink : (m.outputFor location name kind sibling s).1 with
    | source u => exact (hmakes.ownerOfSource u hsink n).trans hbefore
    | artifact r =>
      have hk : kind ≠ .source := by
        rw [Ne, ← hmakes.isSource, hsink]
        simp
      rw [registrations_makes h.tables hm hnew hk, hmakes.owner r hsink, hbefore]
      rfl

/-- The log stays true when a manager is finished. -/
theorem finish (h : Recorded l log s) :
    Recorded l (.finished m :: log) (m.finish s) := by
  have hunnoticed : Unnoticed log s (m.finish s) := by
    refine ⟨.finalizeAll s _, fun o ho => ?_, fun m' _ => ?_⟩ <;>
      rw [FileManager.finish, Store.finalizeAll_eq]
    · exact ho
    · rfl
  refine ⟨h.nodup, h.tables.unnoticed hunnoticed (by simp) (by simp), fun n => ?_⟩
  rw [Loader.artifact?, Loader.table, FileManager.finish, Store.namespaces_finalizeAll]
  exact h.owner n

/-- **The log stays true when an artifact is registered.** -/
theorem register (h : Recorded l log s) (r : Ref Artifact) :
    Recorded l (.registered (s.artifacts.get r).name r :: log) (l.register r s).2 := by
  have hunnoticed : Unnoticed log s (l.register r s).2 :=
    ⟨.of_eq rfl rfl, fun _ ho => ho, fun _ _ => rfl⟩
  refine ⟨h.nodup, h.tables.unnoticed hunnoticed (by simp) (by simp), fun n => ?_⟩
  rw [Loader.artifact?_register, h.owner]
  rfl

/-- **A whole run** keeps what managers have given and what is owned as it is written down. -/
theorem of_run {parent : Host} {materializer : Materializer}
    (h : Run (Loader.new parent materializer origin).1 (Loader.new parent materializer origin).2
      log s) : Recorded (Loader.new parent materializer origin).1 log s := by
  induction h with
  | start =>
    refine ⟨.nil, .start _ _, fun n => ?_⟩
    rw [Loader.artifact?, Loader.table, Loader.new, Store.newNamespace, Arena.get_alloc_self]
    rfl
  | new _ standard finder ih => exact ih.new standard finder
  | outputFor _ hm location name kind sibling ih => exact ih.outputFor hm location name kind sibling
  | finish _ _ ih => exact ih.finish
  | @register _ _ _ r _ ih => exact ih.register r
  | meanwhile _ hst htable ih =>
    refine ⟨ih.nodup, ih.tables.unnoticed hst (fun _ => .rfl) (fun _ => .rfl), fun n => ?_⟩
    rw [Loader.artifact?, htable]
    exact ih.owner n

end Recorded

/-- **Managers of one loader,** in any run of them, of whatever each is asked for and whatever is
registered besides.

* No manager is made twice.  Two requests have one sink exactly if they are for one output: of
  one manager, under one name, and both or none for a source.
* The sink is a source unit exactly if a source was asked for.
* What was given for an output is given again whenever it is asked for, and nothing happens.
* The loader owns the artifact of the latest registration of a name: one by itself, or a
  manager's first request for an artifact of the name.
* It owns the names that were registered, and no others.
* A manager that is finished finishes the artifacts that it gave, and changes nothing else. -/
theorem shared_loader {parent : Host} {materializer : Materializer}
    (h : Run (Loader.new parent materializer origin).1 (Loader.new parent materializer origin).2
      log s) :
    let l := (Loader.new parent materializer origin).1
    (managers log).Nodup ∧
      (∀ q q', .asked q ∈ log → .asked q' ∈ log → (q.sink = q'.sink ↔ q.SameOutput q')) ∧
      (∀ q, .asked q ∈ log → ((∃ u, q.sink = .source u) ↔ q.kind = .source)) ∧
      (∀ q, .asked q ∈ log → ∀ kind, (kind = .source ↔ q.kind = .source) →
        ∀ location sibling, q.manager.outputFor location q.name kind sibling s = (q.sink, s)) ∧
      (∀ name, l.artifact? name s = Table.lookup name (registrations log)) ∧
      (∀ name, name ∈ l.names s ↔ name ∈ (registrations log).map Prod.fst) ∧
      ∀ m, .opened m ∈ log →
        { m.finish s with artifacts := s.artifacts } = s ∧
          (∀ r, Created log m r → (m.finish s).artifacts.get r = (s.artifacts.get r).finalize ∧
            ((m.finish s).artifacts.get r).isFinalized = true) ∧
          ∀ r, ¬ Created log m r → (m.finish s).artifacts.get r = s.artifacts.get r := by
  intro l
  obtain ⟨hnodup, htables, howner⟩ := Recorded.of_run h
  refine ⟨hnodup, fun _ _ hq hq' => htables.sink_eq_iff hq hq',
    fun q hq => exists_source_iff (htables.given q hq),
    fun q hq kind hk => htables.outputFor_again hq hk, howner, fun name => ?_,
    fun m hm => htables.finish_iff hm⟩
  rw [Loader.names, Table.mem_sorted, ← Table.find?_isSome_iff, ← Table.lookup_isSome_iff, ← howner]
  rfl

/-- A loader without names, whose parent has nothing. -/
def lone : Loader × Store := Loader.new Host.empty (.image 0) Store.empty

/-- A manager of that loader. -/
def older : FileManager × Store :=
  FileManager.new Directories.none.toStandardFiles lone.1 ⟨Host.empty, defaultExtension⟩ lone.2

/-- Another one. -/
def younger : FileManager × Store :=
  FileManager.new Directories.none.toStandardFiles lone.1 ⟨Host.empty, defaultExtension⟩ older.2

/-- The older manager is asked for `A`, then the younger one, then the older one again, now for
its documentation; at last an artifact that no manager made is registered. -/
def contested : List Entry × Store :=
  let (a, s) := older.1.outputFor .classOutput "A" .compiled none younger.2
  let (a', s) := younger.1.outputFor .classOutput "A" .compiled none s
  let (again, s) := older.1.outputFor .classOutput "A" .html none s
  let (r, s) := s.newArtifact (.new "A" .other)
  ([.registered "A" r, .asked ⟨older.1, "A", .html, again⟩,
      .asked ⟨younger.1, "A", .compiled, a'⟩, .asked ⟨older.1, "A", .compiled, a⟩,
      .opened younger.1, .opened older.1],
    (lone.1.register r s).2)

/-- All of this is a run. -/
theorem run_contested : Run lone.1 lone.2 contested.1 contested.2 := by
  have hmade : Run lone.1 lone.2 [.opened younger.1, .opened older.1] younger.2 :=
    (Run.start.new _ _).new _ _
  have hasked := ((hmade.outputFor (m := older.1) (.tail _ (.head _)) .classOutput "A" .compiled
    none).outputFor (m := younger.1) (.tail _ (.head _)) .classOutput "A" .compiled none).outputFor
    (m := older.1) (.tail _ (.tail _ (.tail _ (.head _)))) .classOutput "A" .html none
  have hother := hasked.meanwhile (.newArtifact _ (.new "A" .other) _) rfl
  exact hother.register (r := ⟨2⟩) (by decide)

/-- **Two managers that contend for a name:** the loader owns the artifact registered last, each
manager still gives its own, and to finish the older one leaves the artifact of the younger
one as it is. -/
theorem shared_loader_contested :
    lone.1.artifact? "A" contested.2 = some ⟨2⟩ ∧
      older.1.outputFor .classOutput "A" .compiled none contested.2 =
        (.artifact ⟨0⟩, contested.2) ∧
      younger.1.outputFor .classOutput "A" .compiled none contested.2 =
        (.artifact ⟨1⟩, contested.2) ∧
      ((older.1.finish contested.2).artifacts.get ⟨0⟩ =
          (contested.2.artifacts.get ⟨0⟩).finalize ∧
        ((older.1.finish contested.2).artifacts.get ⟨0⟩).isFinalized = true) ∧
      (older.1.finish contested.2).artifacts.get ⟨1⟩ = contested.2.artifacts.get ⟨1⟩ := by
  obtain ⟨-, hsinks, -, hagain, howner, -, hfinish⟩ := shared_loader run_contested
  have hasked : .asked ⟨older.1, "A", .compiled, .artifact ⟨0⟩⟩ ∈ contested.1 :=
    .tail _ (.tail _ (.tail _ (.head _)))
  have hasked' : .asked ⟨younger.1, "A", .compiled, .artifact ⟨1⟩⟩ ∈ contested.1 :=
    .tail _ (.tail _ (.head _))
  have hopened : .opened older.1 ∈ contested.1 :=
    .tail _ (.tail _ (.tail _ (.tail _ (.tail _ (.head _)))))
  obtain ⟨-, hcreated, hother⟩ := hfinish older.1 hopened
  refine ⟨(howner "A").trans rfl, hagain _ hasked .compiled .rfl _ _,
    hagain _ hasked' .compiled .rfl _ _, hcreated _ ⟨"A", .compiled, hasked⟩, hother _ ?_⟩
  rintro ⟨name, kind, hq⟩
  have hsame := (hsinks _ _ hq hasked').1 rfl
  have hindex : older.1.outputs.index = younger.1.outputs.index :=
    congrArg (fun m : FileManager => m.outputs.index) hsame.1
  exact absurd hindex (by decide)

end FileManager
end LiveBuild
