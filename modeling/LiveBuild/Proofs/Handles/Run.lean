/-
# Handles over whole runs

Any number of loaders, one above the other or side by side, may own the same artifacts and have
different materializers, some of which fail.  A run is any sequence of registrations, writes,
finalizations, resolutions, lookups and bulk materializations (`Step`, `Run`), written down as
the incidents that show from outside.

Every step keeps incidents accounted for (`Accounted.step`), so every run does
(`Accounted.run`).  From that follows that an artifact has one handle, for good, and that a
handle is that of one artifact (`handle_of_run`): it does not matter under which name, by which
loader and with which materializer it is asked for.
-/

import LiveBuild.Proofs.Handles.Account
import LiveBuild.Proofs.Host.Steady

namespace LiveBuild

/-- A host that is some loaders, the closest first, over a host. -/
inductive Host.Over (base : Host) : List Loader → Host → Prop
  | base : Over base [] base
  | loader {l : Loader} {ls : List Loader} (h : Over base ls l.parent) : Over base (l :: ls) l.toHost

namespace Handles

/-- The artifact that answers for a name: that of the first loader that owns the name. -/
def provider? : List Loader → String → Store → Option (Ref Artifact)
  | [], _, _ => none
  | l :: ls, name, s => (l.artifact? name s).or (provider? ls name s)

/-- **How a name is resolved by loaders over a host:** the host does it, or one of the loaders
owns the name and its artifact is materialized. -/
theorem resolve_cases {base : Host} (hbase : base.Apart Store.empty) {l : Loader}
    {ls : List Loader} (hl : base.Over ls l.parent) (name : String) (s : Store) :
    (provider? (l :: ls) name s = none ∧ s.Spares 0 ((l.resolve name).attempt s).2) ∨
      ∃ (l' : Loader) (r : Ref Artifact), l'.artifact? name s = some r ∧
        provider? (l :: ls) name s = some r ∧
        ((l.resolve name).attempt s).2 = ((Store.materialize l'.materializer r).attempt s).2 ∧
        ∀ h, ((l.resolve name).attempt s).1 = .ok h →
          ((Store.materialize l'.materializer r).attempt s).1 = .ok h := by
  generalize hp : l.parent = p at hl
  -- a loader that does not own the name does what the next one of the chain does
  induction hl generalizing l with
  | base =>
    cases hname : l.artifact? name s with
    | some r =>
      refine .inr ⟨l, r, hname, by simp [provider?, hname], ?_⟩
      rw [Loader.resolve_of_owned hname]
      exact ⟨rfl, fun _ h => h⟩
    | none =>
      refine .inl ⟨by simp [provider?, hname], ?_⟩
      rw [Loader.store_resolve_of_unowned hname, hp]
      exact hbase name s fun ns hns => absurd hns (Nat.not_lt_zero _)
  | @loader l' ls hl' ih =>
    cases hname : l.artifact? name s with
    | some r =>
      refine .inr ⟨l, r, hname, by simp [provider?, hname], ?_⟩
      rw [Loader.resolve_of_owned hname]
      exact ⟨rfl, fun _ h => h⟩
    | none =>
      have hprovider : provider? (l :: l' :: ls) name s = provider? (l' :: ls) name s := by
        rw [provider?, hname, Option.none_or]
      have hstore : ((l.resolve name).attempt s).2 = ((l'.resolve name).attempt s).2 := by
        rw [Loader.store_resolve_of_unowned hname, hp]
        exact l'.store_find? name s
      have hanswer : ∀ h, ((l.resolve name).attempt s).1 = .ok h →
          ((l'.resolve name).attempt s).1 = .ok h := by
        intro h hr
        have hfound := Loader.find?_parent_of_resolve hname hr
        rw [hp] at hfound
        exact Loader.find?_eq_some_iff.1 hfound
      rw [hprovider, hstore]
      rcases ih rfl with hnone | ⟨l'', r, hr, hprov, hst, hok⟩
      · exact .inl hnone
      · exact .inr ⟨l'', r, hr, hprov, hst, fun h hh => hok h (hanswer h hh)⟩

/-- To resolve a name changes no namespace. -/
theorem namespaces_resolve {base : Host} (hbase : base.Apart Store.empty) {l : Loader}
    {ls : List Loader} (hl : base.Over ls l.parent) (name : String) (s : Store) :
    ((l.resolve name).attempt s).2.namespaces = s.namespaces := by
  rcases resolve_cases hbase hl name s with ⟨-, hst⟩ | ⟨l', r, -, -, hst, -⟩
  · exact hst.namespaces
  · rw [hst, Store.namespaces_materialize]

/-- What shows of a question for a name that an artifact answers for, if one does. -/
def asked (provider : Option (Ref Artifact)) (answer : Option (Ref LoadedArtifact))
    (s t : Store) : List Incident :=
  match provider with
  | none => []
  | some r => calls r s t ++ answers (answer.map fun h => (r, h)).toList

/-- One thing that happens to artifacts and loaders, and what shows of it. -/
inductive Step (s : Store) : List Incident → Store → Prop
  | artifact (name : String) (kind : Kind) : Step s [] (s.newArtifact (.new name kind)).2
  | loader (parent : Host) (m : Materializer) : Step s [] (Loader.new parent m s).2
  | register {l : Loader} (hl : s.namespaces.Live l.owned) {r : Ref Artifact}
    (hr : s.artifacts.Live r) :
    Step s [.registered l.owned (s.artifacts.get r).name r] (l.register r s).2
  | write (sink : Sink) (bytes : Bytes) : Step s [] ((sink.write bytes).attempt s).2
  | finalize (r : Ref Artifact) : Step s [] (s.finalize r)
  | materialize {r : Ref Artifact} (hr : s.artifacts.Live r) (m : Materializer) :
    Step s
      (asked (some r) ((Store.materialize m r).attempt s).1.toOption s
        ((Store.materialize m r).attempt s).2)
      ((Store.materialize m r).attempt s).2
  | resolve {base : Host} (hbase : base.Apart Store.empty) {l : Loader} {ls : List Loader}
    (hl : base.Over ls l.parent) (name : String) :
    Step s
      (asked (provider? (l :: ls) name s) ((l.resolve name).attempt s).1.toOption s
        ((l.resolve name).attempt s).2)
      ((l.resolve name).attempt s).2
  | find {base : Host} (hbase : base.Apart Store.empty) {l : Loader} {ls : List Loader}
    (hl : base.Over ls l.parent) (name : String) :
    Step s
      (asked (provider? (l :: ls) name s) ((l.find? name).attempt s).1.toOption.join s
        ((l.find? name).attempt s).2)
      ((l.find? name).attempt s).2
  | all (l : Loader) (o : VisitOrder) :
    Step s
      (l.materializeCalls (o.names (l.table s)) s ++
        answers (l.materializeAnswers s
          (((l.allMaterializedIn o).attempt s).1.toOption.getD [])))
      ((l.allMaterializedIn o).attempt s).2
  /-- A host loads something, or what happens has nothing to do with artifacts. -/
  | aside {t : Store} (h : s.Spares 0 t) : Step s [] t

/-- A loader that owns a name resolves it to a handle of its artifact. -/
structure Resolves (l : Loader) (name : String) (r : Ref Artifact) (h : Ref LoadedArtifact)
    (s t : Store) : Prop where
  owned : l.artifact? name s = some r
  answer : (l.resolve name).attempt s = (.ok h, t)

/-- A sequence of steps, and what shows of it. -/
inductive Run (s : Store) : List Incident → Store → Prop
  | nil : Run s [] s
  | snoc {t u : Store} {log more : List Incident} (h : Run s log t) (hs : Step t more u) :
    Run s (log ++ more) u

namespace Accounted

variable {log : List Incident} {s t : Store}

/-- **A question for an artifact is accounted for,** if what is answered was made of it. -/
theorem asked (h : Accounted log s) {r : Ref Artifact} (hr : s.artifacts.Live r) {m : Materializer}
    (ht : t = ((Store.materialize m r).attempt s).2) {answer : Option (Ref LoadedArtifact)}
    (hanswer : ∀ a, answer = some a → ((Store.materialize m r).attempt s).1 = .ok a) :
    Accounted (log ++ Handles.asked (some r) answer s t) t := by
  have hcalled := h.materialize hr m
  have hlive : t.artifacts.Live r := by
    rw [ht]
    exact (Store.Continues.materialize m r s).live hr
  rw [← ht] at hcalled
  rw [Handles.asked, ← List.append_assoc]
  refine hcalled.answers fun x hx => ?_
  obtain ⟨a, ha, rfl⟩ := Option.map_eq_some_iff.1 (Option.mem_toList.1 hx)
  have hmade : (Store.materialize m r).attempt s = (.ok a, t) := Prod.ext (hanswer a ha) ht.symm
  exact ⟨hlive, Store.loaded_of_materialize hmade⟩

/-- A name is asked for from a loader, whoever answers. -/
theorem lookup (h : Accounted log s) {base : Host} (hbase : base.Apart Store.empty) {l : Loader}
    {ls : List Loader} (hl : base.Over ls l.parent) (name : String)
    {answer : Option (Ref LoadedArtifact)}
    (hanswer : ∀ a, answer = some a → ((l.resolve name).attempt s).1 = .ok a) :
    Accounted
      (log ++ Handles.asked (provider? (l :: ls) name s) answer s ((l.resolve name).attempt s).2)
      ((l.resolve name).attempt s).2 := by
  rcases resolve_cases hbase hl name s with ⟨hnone, hst⟩ | ⟨l', r, hr, hprovider, hst, hok⟩
  · rw [hnone, Handles.asked, List.append_nil]
    exact h.continues hst.continues (h.sound.spares hst)
  · rw [hprovider]
    exact h.asked (h.sound.artifact? hr).2 hst fun a ha => hok a (hanswer a ha)

/-- **Every step is accounted for.** -/
theorem step {more : List Incident} (h : Accounted log s) (hs : Step s more t) :
    Accounted (log ++ more) t := by
  cases hs with
  | artifact name kind =>
    rw [List.append_nil]
    exact h.continues (.of_newArtifact (.new name kind) rfl rfl) (h.sound.newArtifact name kind)
  | loader parent m =>
    rw [List.append_nil]
    exact h.continues (.of_eq rfl rfl) (h.sound.newLoader parent m)
  | register hl hr =>
    have hcontinues : ∀ l : Loader, ∀ r, s.Continues (l.register r s).2 := fun _ _ => .of_eq rfl rfl
    exact (h.continues (hcontinues _ _) (h.sound.register hl hr)).registered _ _ _
  | write sink bytes =>
    rw [List.append_nil]
    exact h.continues (.write sink bytes s) (h.sound.write sink bytes)
  | finalize r =>
    rw [List.append_nil]
    exact h.continues (.finalize s r) (h.sound.finalize r)
  | materialize hr m => exact h.asked hr rfl fun a ha => eq_ok_of_toOption_eq_some ha
  | resolve hbase hl name => exact h.lookup hbase hl name fun a ha => eq_ok_of_toOption_eq_some ha
  | @find base hbase l ls hl name =>
    rw [l.store_find? name s]
    refine h.lookup hbase hl name fun a ha => Loader.find?_eq_some_iff.1 ?_
    exact eq_ok_of_toOption_eq_some (Option.join_eq_some_iff.1 ha)
  | all l o =>
    have hcalls := h.materializeAll l (o.names (l.table s))
    have hall : (l.allMaterializedIn o).attempt s =
        (l.materializeAll (o.names (l.table s))).attempt s := rfl
    rw [← List.append_assoc, hall]
    refine hcalls.answers fun x hx => ?_
    rcases hx' : (l.materializeAll (o.names (l.table s))).attempt s with ⟨e | built, t⟩ <;>
      rw [hx'] at hx hcalls
    · cases hx
    · exact kept_of_materializeAll hx' hcalls.sound x hx
  | aside hst =>
    rw [List.append_nil]
    exact h.continues hst.continues (h.sound.spares hst)

/-- **Every run is accounted for.** -/
theorem run {more : List Incident} (h : Accounted log s) (hs : Run s more t) :
    Accounted (log ++ more) t := by
  induction hs with
  | nil => rwa [List.append_nil]
  | snoc _ hstep ih =>
    rw [← List.append_assoc]
    exact ih.step hstep

/-- **One handle for each artifact, and one artifact for each handle.** -/
theorem handle_eq_iff (h : Accounted log s) {r r' : Ref Artifact} {a a' : Ref LoadedArtifact}
    (ha : .answered r a ∈ log) (ha' : .answered r' a' ∈ log) : a = a' ↔ r = r' := by
  obtain ⟨hlive, hloaded⟩ := h.answered r a ha
  obtain ⟨hlive', hloaded'⟩ := h.answered r' a' ha'
  constructor
  · rintro rfl
    exact h.sound.apart r r' a hlive hlive' hloaded hloaded'
  · rintro rfl
    exact Option.some.inj (hloaded.symm.trans hloaded')

/-- A name that a loader owns is resolved, and the answer is accounted for. -/
theorem resolves (h : Accounted log s) {l : Loader} {name : String} {r : Ref Artifact}
    {a : Ref LoadedArtifact} (hr : Resolves l name r a s t) :
    ∃ more, Accounted (log ++ more) t ∧ .answered r a ∈ more := by
  have hx := hr.answer
  rw [Loader.resolve_of_owned hr.owned] at hx
  refine ⟨Handles.asked (some r) (some a) s t,
    h.asked (h.sound.artifact? hr.owned).2 (by rw [hx]) ?_, ?_⟩
  · rintro a' ⟨⟩
    rw [hx]
  · simp [Handles.asked, Handles.answers]

end Accounted

/-- **A name stays with its artifact** as long as nothing is registered under it. -/
theorem Step.owner {s t : Store} {more : List Incident} (h : Step s more t) {l : Loader}
    {name : String} (hl : s.namespaces.Live l.owned)
    (hnone : ∀ r, .registered l.owned name r ∉ more) :
    t.namespaces.Live l.owned ∧ l.artifact? name t = l.artifact? name s := by
  have hsame : ∀ u : Store, u.namespaces = s.namespaces →
      u.namespaces.Live l.owned ∧ l.artifact? name u = l.artifact? name s := by
    intro u hu
    rw [Loader.artifact?, Loader.artifact?, Loader.table, Loader.table, hu]
    exact ⟨hl, rfl⟩
  cases h with
  | artifact n kind => exact hsame _ rfl
  | loader parent m =>
    refine ⟨Arena.live_alloc_of_live _ hl, ?_⟩
    exact congrArg (Table.find? · name) (Arena.get_alloc_of_live _ hl)
  | @register l' hl' r hr =>
    refine ⟨hl, ?_⟩
    by_cases he : l'.owned = l.owned
    · have hname : (s.artifacts.get r).name ≠ name := by
        rintro rfl
        exact hnone r (by rw [he]; exact List.mem_singleton_self _)
      have hregister : (l'.register r s).2 = (l.register r s).2 := by
        rw [Loader.register, Loader.register, he]
      rw [hregister, Loader.artifact?_register, if_neg hname]
    · exact Loader.artifact?_register_of_ne he r s name
  | write sink bytes => exact hsame _ (Store.steady_write sink bytes s).namespaces
  | finalize r => exact hsame _ rfl
  | @materialize r hr m => exact hsame _ (Store.namespaces_materialize m r s)
  | resolve hbase hl' n => exact hsame _ (namespaces_resolve hbase hl' n s)
  | @find base hbase l' ls hl' n =>
    rw [l'.store_find? n s]
    exact hsame _ (namespaces_resolve hbase hl' n s)
  | all l' o =>
    refine hsame _ (Loader.materializeAll_preserves (l := l')
      (P := fun u => u.namespaces = s.namespaces) ?_ (o.names (l'.table s)) rfl)
    intro u r hu
    rw [Store.namespaces_materialize, hu]
  | aside hst => exact hsame _ hst.namespaces

/-- **A name stays with its owner through every run that registers nothing under it.** -/
theorem Run.owner {s t : Store} {log : List Incident} (h : Run s log t) {l : Loader}
    {name : String} (hl : s.namespaces.Live l.owned)
    (hnone : ∀ r, .registered l.owned name r ∉ log) :
    t.namespaces.Live l.owned ∧ l.artifact? name t = l.artifact? name s := by
  induction h with
  | nil => exact ⟨hl, rfl⟩
  | snoc _ hstep ih =>
    obtain ⟨hlive, howner⟩ := ih fun r hr => hnone r (List.mem_append_left _ hr)
    obtain ⟨hlive', howner'⟩ := hstep.owner hlive fun r hr => hnone r (List.mem_append_right _ hr)
    exact ⟨hlive', howner'.trans howner⟩

/-- To resolve an owned name changes no owner. -/
theorem Resolves.owner {l : Loader} {name : String} {r : Ref Artifact} {h : Ref LoadedArtifact}
    {s t : Store} (hr : Resolves l name r h s t) :
    t.namespaces = s.namespaces ∧ l.artifact? name t = some r := by
  have hx := hr.answer
  rw [Loader.resolve_of_owned hr.owned] at hx
  have hn := Store.namespaces_materialize l.materializer r s
  have howner := l.artifact?_materialize l.materializer r s name
  rw [hx] at hn howner
  exact ⟨hn, howner.trans hr.owned⟩

/-- **Handles over a run.**

* All handles that are answered for an artifact are one handle, and a handle is answered for
  one artifact alone.
* At most one call of a materializer succeeds for an artifact.
* A materialization that fails changes nothing but the records of calls: nothing is kept, and
  no artifact and no name changes.
* When a name is resolved by a loader that owns it, and later a name by a loader that owns that
  one, the handles are equal exactly if the artifacts are; and they are if it is the same name
  of the same loader, and nothing was registered under it in between. -/
theorem handle_of_run {origin : Store} (ho : origin.Sound) {log : List Incident} {s : Store}
    (hs : Run origin log s) :
    (∀ r r' h h', .answered r h ∈ log → .answered r' h' ∈ log → (h = h' ↔ r = r')) ∧
      (∀ r, log.count (.called r true) ≤ 1) ∧
      (∀ m r e t, (Store.materialize m r).attempt s = (.error e, t) →
        t = { s with attempts := t.attempts }) ∧
      ∀ l name r h t between u l' name' r' h' v, Resolves l name r h s t → Run t between u →
        Resolves l' name' r' h' u v →
          (h = h' ↔ r = r') ∧
            (l'.owned = l.owned → name' = name → (∀ a, .registered l.owned name a ∉ between) →
              r = r' ∧ h = h') := by
  have haccount : Accounted log s := (Accounted.start ho).run hs
  refine ⟨fun r r' h h' => haccount.handle_eq_iff, haccount.once, fun m r e t hx => ?_,
    fun l name r h t between u l' name' r' h' v hr hbetween hr' => ?_⟩
  · rcases Store.materialize_cases m r s with ⟨a, -, hx'⟩ | ⟨e', -, -, hx'⟩ | ⟨a, -, -, hx'⟩ <;>
      rw [hx] at hx' <;> cases hx'
    rfl
  · obtain ⟨first, hfirst, hanswer⟩ := haccount.resolves hr
    obtain ⟨second, hsecond, hanswer'⟩ := (hfirst.run hbetween).resolves hr'
    have hiff : h = h' ↔ r = r' :=
      hsecond.handle_eq_iff (by simp [hanswer]) (List.mem_append_right _ hanswer')
    refine ⟨hiff, fun howned hname hnone => ?_⟩
    obtain ⟨hn, howner⟩ := hr.owner
    have hlive : t.namespaces.Live l.owned := hn ▸ (haccount.sound.artifact? hr.owned).1
    have hstays : l.artifact? name u = some r := ((hbetween.owner hlive hnone).2).trans howner
    have hother : l'.artifact? name' u = l.artifact? name u := by
      rw [hname, Loader.artifact?, Loader.artifact?, Loader.table, Loader.table, howned]
    have he : r = r' := Option.some.inj (hstays.symm.trans (hother.symm.trans hr'.owned))
    exact ⟨he, hiff.2 he⟩

/-- A loader whose materializer fails once for `A`. -/
def shy : Loader × Store :=
  Loader.new Host.empty (.failing 0 (Table.empty.insert "A" 1)) Store.empty

/-- A loader beside it whose materializer never fails. -/
def bold : Loader × Store := Loader.new Host.empty (.image 1) shy.2

/-- Both own an artifact `A`. -/
def shared : Store :=
  (bold.1.register ⟨0⟩ (shy.1.register ⟨0⟩ (bold.2.newArtifact (.new "A" .compiled)).2).2).2

/-- The first one was asked for it. -/
def askedOnce : Store := ((shy.1.resolve "A").attempt shared).2

/-- **An artifact that two loaders own:** the first one fails, the second one makes something of
it, and the first one answers what the second one made. -/
theorem handle_of_run_shared :
    (∃ e, ((shy.1.resolve "A").attempt shared).1 = .error e) ∧
      ∃ h t u, Resolves bold.1 "A" ⟨0⟩ h askedOnce t ∧ Resolves shy.1 "A" ⟨0⟩ h t u := by
  have hmade : Run Store.empty _ (bold.2.newArtifact (.new "A" .compiled)).2 :=
    ((Run.nil.snoc (.loader Host.empty (.failing 0 (Table.empty.insert "A" 1)))).snoc
      (.loader Host.empty (.image 1))).snoc (.artifact "A" .compiled)
  have hshy := hmade.snoc (.register (l := shy.1) (r := ⟨0⟩) (by decide) (by decide))
  have hshared : Run Store.empty _ shared :=
    hshy.snoc (.register (l := bold.1) (r := ⟨0⟩) (by decide) (by decide))
  have hbase : Host.empty.Over [] shy.1.parent := .base
  have hasked : Run Store.empty _ askedOnce :=
    hshared.snoc (.resolve (Host.keeps_empty (Host.bearsLoading_apart _)) hbase "A")
  obtain ⟨-, -, -, hsame⟩ := handle_of_run .empty hasked
  set t := ((bold.1.resolve "A").attempt askedOnce).2 with ht
  set u := ((shy.1.resolve "A").attempt t).2
  have hbold : ((bold.1.resolve "A").attempt askedOnce).1 = .ok ⟨0⟩ := rfl
  have hfirst : Resolves bold.1 "A" ⟨0⟩ ⟨0⟩ askedOnce t := ⟨rfl, Prod.ext hbold rfl⟩
  obtain ⟨h, hagain⟩ : ∃ h, ((shy.1.resolve "A").attempt t).1 = .ok h := ⟨⟨0⟩, by rw [ht]; rfl⟩
  have hsecond : Resolves shy.1 "A" ⟨0⟩ h t u := ⟨by rw [ht]; rfl, Prod.ext hagain rfl⟩
  have hiff := (hsame _ _ _ _ _ _ _ _ _ _ _ _ hfirst .nil hsecond).1
  obtain rfl := hiff.2 rfl
  exact ⟨⟨.materialization "A" "scripted", rfl⟩, ⟨0⟩, t, u, hfirst, hsecond⟩

end Handles
end LiveBuild
