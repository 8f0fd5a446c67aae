/-
# What sinks take

An output has one sink, whoever asks for it and how often.  What its object becomes depends on
what was written through the sink alone, and on when it was closed:

| | an artifact | a source unit |
| --- | --- | --- |
| takes | the bytes of every write | the text of one write, as a whole |
| until | it is finalized, by itself or with everything else | it has a text |
| refuses then | every write | every write |
| refuses at any time | | bytes that are no text |

A write that is refused leaves everything as it is.  So the bytes of an artifact are those that
were written before it was first finalized, and the text of a unit is the first one that was
written, whatever was refused before or after (`sink_takes`).

The uses of sinks are taken apart once for each sort of object: what one use makes of an artifact
(`Use.onArtifact`, `get_perform`) and of the text of a unit (`content_performUse`).  The rest is
about lists of uses.
-/

import LiveBuild.Proofs.FileManager.Delivery
import LiveBuild.Proofs.FileManager.Kinds
import LiveBuild.Proofs.FileManager.Shared
import LiveBuild.Proofs.Text.Utf8

namespace LiveBuild
namespace FileManager

open Text.Utf8 (IsText decode encode)

/-- What is done with sinks: a manager is called, or an artifact is finalized by itself. -/
inductive Use where
  | call (c : Call)
  | finalize (r : Ref Artifact)

namespace Use

/-- The store that a use leaves behind. -/
def perform (m : FileManager) (s : Store) : Use → Store
  | .call c => c.perform m s
  | .finalize r => s.finalize r

/-- Whether a use finalizes an artifact that its manager gave out. -/
def closes (r : Ref Artifact) : Use → Bool
  | .finalize r' => r' = r
  | .call .finish => true
  | .call (.outputFor ..) | .call (.write ..) | .call .takeGenerated => false

/-- The bytes that a use offers to an artifact. -/
def bytesFor (r : Ref Artifact) : Use → Bytes
  | .call (.write (.artifact r') bytes) => if r' = r then bytes else []
  | .call (.write (.source _) _) | .call (.outputFor ..) | .call .takeGenerated | .call .finish
  | .finalize _ => []

/-- The text that a use offers to a unit. -/
def text? (u : Ref SourceUnit) : Use → Option String
  | .call c => c.text? u
  | .finalize _ => none

/-- What a use makes of an artifact. -/
def onArtifact (r : Ref Artifact) (a : Artifact) (x : Use) : Artifact :=
  if x.closes r then a.finalize
  else if a.isFinalized then a
  else { a with bytes := a.bytes ++ x.bytesFor r }

end Use

/-- The store that uses leave behind, one after the other. -/
def use (m : FileManager) (s : Store) (uses : List Use) : Store := uses.foldl (Use.perform m) s

/-- The bytes that were written to an artifact before it was first finalized. -/
def taken (r : Ref Artifact) (uses : List Use) : Bytes :=
  (uses.takeWhile fun x => !x.closes r).flatMap (Use.bytesFor r)

/-- The first bytes of a text that were written to a unit are those of this text. -/
def FirstText (u : Ref SourceUnit) (text : String) (uses : List Use) : Prop :=
  ∃ before after, uses = before ++ .call (.write (.source u) (encode text)) :: after ∧
    ∀ bytes, .call (.write (.source u) bytes) ∈ before → ¬ IsText bytes

variable {m : FileManager} {s t : Store} {name : String} {kind : Kind} {sink : Sink}
  {r : Ref Artifact} {u : Ref SourceUnit}

/-! ### What stays -/

/-- No use of a manager forgets what was asked for. -/
theorem extends_performUse (m : FileManager) (s : Store) (x : Use) :
    (m.asked s).Extends (m.asked (x.perform m s)) := by
  cases x with
  | call c => exact m.extends_perform s c
  | finalize r => exact .refl _

/-- No use of a manager gives an object another identity. -/
theorem keepsIdentities_performUse (m : FileManager) (s : Store) (x : Use) :
    s.KeepsIdentities (x.perform m s) := by
  cases x with
  | call c => exact m.keepsIdentities_perform s c
  | finalize r => exact .of_continues rfl (.finalize s r)

/-- No uses of a manager give an object another identity. -/
theorem keepsIdentities_use (m : FileManager) (s : Store) (uses : List Use) :
    s.KeepsIdentities (m.use s uses) := by
  induction uses generalizing s with
  | nil => exact .refl s
  | cons x uses ih => exact (m.keepsIdentities_performUse s x).trans (ih (x.perform m s))

/-- **A sink stays the sink of its output.** -/
theorem sink?_use (h : m.sink? name kind s = some sink) (uses : List Use) :
    m.sink? name kind (m.use s uses) = some sink := by
  induction uses generalizing s with
  | nil => exact h
  | cons x uses ih => exact ih (sink?_of_extends h (m.extends_performUse s x))

/-! ### Artifacts -/

/-- To ask for an output changes no artifact that there is. -/
theorem get_outputFor (m : FileManager) (location : Location) (name : String) (kind : Kind)
    (sibling : Option FileHandle) (hr : s.artifacts.Live r) :
    (m.outputFor location name kind sibling s).2.artifacts.get r = s.artifacts.get r := by
  rcases m.outputFor_cases location name kind sibling s with
    ⟨sink, -, hx⟩ | ⟨-, -, hx⟩ | ⟨-, -, hx⟩ <;> rw [hx]
  · rfl
  · exact Arena.get_alloc_of_live _ hr

/-- A write to an artifact appends the bytes, unless it is finalized. -/
theorem get_write (sink : Sink) (bytes : Bytes) (s : Store) (r : Ref Artifact) :
    ((sink.write bytes).attempt s).2.artifacts.get r =
      Use.onArtifact r (s.artifacts.get r) (.call (.write sink bytes)) := by
  cases sink with
  | source u =>
    have hsame : ((Store.writeUnit u bytes).attempt s).2.artifacts = s.artifacts := by
      unfold Action.attempt Store.writeUnit
      cases (s.units.get u).write bytes <;> rfl
    simp [Sink.write, hsame, Use.onArtifact, Use.closes, Use.bytesFor]
  | artifact r' =>
    simp only [Sink.write, Use.onArtifact, Use.closes, Use.bytesFor, Bool.false_eq_true, if_false]
    by_cases he : r' = r
    · subst he
      rw [if_pos rfl]
      cases hf : (s.artifacts.get r').isFinalized with
      | true => rw [Store.writeArtifact_of_finished hf, if_pos rfl]
      | false =>
        simp [Action.attempt, Store.writeArtifact, Artifact.write, hf]
    · rw [if_neg he, List.append_nil, ite_self]
      unfold Action.attempt Store.writeArtifact
      cases (s.artifacts.get r').write bytes with
      | error e => rfl
      | ok a => exact Arena.get_set_of_ne _ _ he

/-- **What a use makes of an artifact** that its manager gave out. -/
theorem get_perform (hr : s.artifacts.Live r)
    (hgiven : (m.asked s).artifacts.find? name = some r) (x : Use) :
    (x.perform m s).artifacts.get r = Use.onArtifact r (s.artifacts.get r) x := by
  cases x with
  | finalize r' =>
    rw [Use.perform, Use.onArtifact, Use.closes, Use.bytesFor, List.append_nil, ite_self]
    by_cases he : r' = r
    · subst he
      rw [Store.finalize, Arena.get_modify_self]
      simp
    · rw [Store.finalize, Arena.get_modify_of_ne _ _ he]
      simp [he]
  | call c =>
    cases c with
    | outputFor location n k sibling =>
      rw [Use.perform, Call.perform, get_outputFor m location n k sibling hr]
      simp [Use.onArtifact, Use.closes, Use.bytesFor]
    | write sink bytes => exact get_write sink bytes s r
    | takeGenerated =>
      simp only [Use.onArtifact, Use.closes, Use.bytesFor, List.append_nil, ite_self]
      rfl
    | finish =>
      have hmem : r ∈ m.artifacts s := (Table.mem_values_iff _ r).2 ⟨name, hgiven⟩
      rw [Use.perform, Call.perform, finish, Store.get_finalizeAll, if_pos hmem]
      rfl

/-- **What uses make of an artifact,** one after the other. -/
theorem get_use (hr : s.artifacts.Live r) (hgiven : (m.asked s).artifacts.find? name = some r)
    (uses : List Use) :
    (m.use s uses).artifacts.get r = uses.foldl (Use.onArtifact r) (s.artifacts.get r) := by
  induction uses generalizing s with
  | nil => rfl
  | cons x uses ih =>
    rw [List.foldl_cons, ← get_perform hr hgiven x]
    exact ih ((m.keepsIdentities_performUse s x).artifact r hr).1
      ((m.extends_performUse s x).artifact name r hgiven)

/-- An artifact keeps its name through all uses. -/
theorem name_foldl (r : Ref Artifact) (uses : List Use) (a : Artifact) :
    (uses.foldl (Use.onArtifact r) a).name = a.name := by
  induction uses generalizing a with
  | nil => rfl
  | cons x uses ih =>
    rw [List.foldl_cons, ih, Use.onArtifact, Artifact.finalize]
    split
    · rfl
    · split <;> rfl

/-- An artifact is finalized as soon as one use does it. -/
theorem isFinalized_foldl (r : Ref Artifact) (uses : List Use) (a : Artifact) :
    (uses.foldl (Use.onArtifact r) a).isFinalized = (a.isFinalized || uses.any (Use.closes r)) := by
  induction uses generalizing a with
  | nil => simp
  | cons x uses ih =>
    have hone : (Use.onArtifact r a x).isFinalized = (a.isFinalized || x.closes r) := by
      unfold Use.onArtifact Artifact.finalize
      cases x.closes r <;> cases ha : a.isFinalized <;> simp [ha]
    rw [List.foldl_cons, ih, hone, List.any_cons, Bool.or_assoc]

/-- What an artifact takes is what it takes at first, and then what it takes later, until it is
closed. -/
theorem taken_cons (r : Ref Artifact) (x : Use) (uses : List Use) :
    taken r (x :: uses) = if x.closes r then [] else x.bytesFor r ++ taken r uses := by
  unfold taken
  cases hx : x.closes r <;> simp [hx]

/-- **An artifact has the bytes that it had, and those that it took before it was finalized.** -/
theorem bytes_foldl (r : Ref Artifact) (uses : List Use) (a : Artifact) :
    (uses.foldl (Use.onArtifact r) a).bytes =
      if a.isFinalized then a.bytes else a.bytes ++ taken r uses := by
  induction uses generalizing a with
  | nil => simp [taken]
  | cons x uses ih =>
    rw [List.foldl_cons, ih, taken_cons]
    cases hx : x.closes r with
    | true => simp [Use.onArtifact, hx, Artifact.finalize]
    | false => cases ha : a.isFinalized <;> simp [Use.onArtifact, hx, ha]

/-- **What uses make of a new artifact.** -/
theorem get_use_newOutput (m : FileManager) (name : String) (kind : Kind) (s : Store)
    (uses : List Use) :
    (m.use (m.newOutput name kind s) uses).artifacts.get (s.artifacts.alloc (.new name kind)).1 =
      uses.foldl (Use.onArtifact (s.artifacts.alloc (.new name kind)).1) (.new name kind) := by
  have hlive : (m.newOutput name kind s).artifacts.Live (s.artifacts.alloc (.new name kind)).1 :=
    Arena.live_alloc_self _ _
  have hget : (m.newOutput name kind s).artifacts.get (s.artifacts.alloc (.new name kind)).1 =
      .new name kind := Arena.get_alloc_self _ _
  have hfind : (m.asked (m.newOutput name kind s)).artifacts.find? name =
      some (s.artifacts.alloc (.new name kind)).1 := by
    rw [asked_newOutput, Table.find?_insert_self]
  rw [get_use hlive hfind, hget]

/-- A write to an artifact that is not finalized is taken. -/
theorem write_of_open (h : (s.artifacts.get r).isFinalized = false) (bytes : Bytes) :
    (((Sink.artifact r).write bytes).attempt s).1 = .ok () := by
  simp [Sink.write, Action.attempt, Store.writeArtifact, Artifact.write, h]

/-- **What a new artifact takes:** every write until it is finalized, and none afterwards. -/
theorem write_newOutput (m : FileManager) (name : String) (kind : Kind) (s : Store)
    (uses : List Use) (bytes : Bytes) :
    let r := (s.artifacts.alloc (.new name kind)).1
    let t := m.use (m.newOutput name kind s) uses
    (uses.any (Use.closes r) = false → (((Sink.artifact r).write bytes).attempt t).1 = .ok ()) ∧
      (uses.any (Use.closes r) = true →
        ((Sink.artifact r).write bytes).attempt t = (.error (.artifactFinalized name), t)) := by
  intro r t
  have ht : t.artifacts.get r = uses.foldl (Use.onArtifact r) (.new name kind) :=
    m.get_use_newOutput name kind s uses
  have hclosed : (t.artifacts.get r).isFinalized = uses.any (Use.closes r) := by
    rw [ht, isFinalized_foldl]
    rfl
  have hname : (t.artifacts.get r).name = name := by
    rw [ht, name_foldl]
    rfl
  refine ⟨fun hopen => write_of_open (hclosed.trans hopen) bytes, fun hclose => ?_⟩
  have hrefused := Store.writeArtifact_of_finished (hclosed.trans hclose) bytes
  rw [hname] at hrefused
  exact hrefused

/-! ### Source units -/

/-- A use gives a unit the text that it offers, if the unit has none yet. -/
theorem content_performUse (m : FileManager) (hu : s.units.Live u) (x : Use) :
    ((x.perform m s).units.get u).content = (s.units.get u).content.or (x.text? u) := by
  cases x with
  | call c => exact m.content_perform c hu
  | finalize r => exact Option.or_none.symm

/-- **A unit has the first text that a use gives it,** if it had none before. -/
theorem content_use (m : FileManager) (hu : s.units.Live u) (uses : List Use) :
    ((m.use s uses).units.get u).content =
      (s.units.get u).content.or (uses.findSome? (Use.text? u)) := by
  induction uses generalizing s with
  | nil => exact Option.or_none.symm
  | cons x uses ih =>
    have hlive := ((m.keepsIdentities_performUse s x).unit u hu).1
    have hrest := ih hlive
    rw [content_performUse m hu x, Option.or_assoc] at hrest
    refine hrest.trans (congrArg _ ?_)
    rw [List.findSome?_cons]
    cases x.text? u <;> rfl

/-- A text is offered by the write of its bytes. -/
theorem text?_eq_some_iff {x : Use} {text : String} :
    x.text? u = some text ↔ x = .call (.write (.source u) (encode text)) := by
  unfold Use.text? Call.text?
  split
  · rename_i c
    split
    · rename_i v bytes
      by_cases he : v = u
      · subst he
        rw [if_pos rfl]
        have hdecode : (decode bytes).toOption = some text ↔ encode text = bytes := by
          rw [← Text.Utf8.decode_eq_ok_iff]
          cases decode bytes <;> simp [Except.toOption]
        simp [hdecode, eq_comm]
      · simp [he]
    all_goals simp
  · simp

/-- Nothing is offered by a write of bytes that are no text. -/
theorem text?_eq_none_iff {x : Use} :
    x.text? u = none ↔ ∀ bytes, x = .call (.write (.source u) bytes) → ¬ IsText bytes := by
  simp only [Option.eq_none_iff_forall_ne_some, ne_eq, text?_eq_some_iff, IsText]
  constructor
  · rintro h _ rfl ⟨text, rfl⟩
    exact h text rfl
  · rintro h text rfl
    exact h _ rfl ⟨text, rfl⟩

/-- **The first text that is offered is the first that is written.** -/
theorem findSome?_text?_eq_some_iff {uses : List Use} {text : String} :
    uses.findSome? (Use.text? u) = some text ↔ FirstText u text uses := by
  simp only [List.findSome?_eq_some_iff, FirstText, text?_eq_some_iff, text?_eq_none_iff]
  constructor
  · rintro ⟨before, _, after, hsplit, rfl, hbefore⟩
    exact ⟨before, after, hsplit, fun bytes hin => hbefore _ hin bytes rfl⟩
  · rintro ⟨before, after, hsplit, hbefore⟩
    refine ⟨before, _, after, hsplit, rfl, ?_⟩
    rintro _ hin bytes rfl
    exact hbefore bytes hin

/-- **What uses make of a new unit.** -/
theorem get_use_newSource (m : FileManager) (name : String) (s : Store) (uses : List Use) :
    (m.use (m.newSource name s) uses).units.get (s.units.alloc (.pending name)).1 =
      ⟨name, uses.findSome? (Use.text? (s.units.alloc (.pending name)).1)⟩ := by
  have hlive : (m.newSource name s).units.Live (s.units.alloc (.pending name)).1 :=
    Arena.live_alloc_self _ _
  have hget : (m.newSource name s).units.get (s.units.alloc (.pending name)).1 = .pending name :=
    Arena.get_alloc_self _ _
  have hname := ((m.keepsIdentities_use _ uses).unit _ hlive).2
  have hcontent := m.content_use hlive uses
  rw [hget] at hname hcontent
  exact congrArg₂ SourceUnit.mk hname hcontent

/-- **What a unit takes:** bytes that are no text are refused, whether it has a text or not; the
bytes of a text are taken as long as it has none, and refused once it has one. -/
theorem write_source (hname : (s.units.get u).name = name) (bytes : Bytes) :
    (¬ IsText bytes → ∃ fault, decode bytes = .error fault ∧
        ((Sink.source u).write bytes).attempt s =
          (.error (.invalidSource (.notText name fault)), s)) ∧
      (IsText bytes → (s.units.get u).isPending = true →
        (((Sink.source u).write bytes).attempt s).1 = .ok ()) ∧
      (IsText bytes → (s.units.get u).isPending = false →
        ((Sink.source u).write bytes).attempt s = (.error (.sourceAlreadyWritten name), s)) := by
  subst hname
  refine ⟨fun hbytes => ?_, ?_, ?_⟩
  · obtain ⟨fault, hd⟩ := Text.Utf8.exists_fault_iff.2 hbytes
    refine ⟨fault, hd, ?_⟩
    simp [Sink.write, Action.attempt, Store.writeUnit, SourceUnit.write, hd]
  · rintro ⟨text, rfl⟩ hpending
    have hd : decode (encode text) = .ok text := Text.Utf8.decode_eq_ok_iff.2 rfl
    have hc : (s.units.get u).content = none := by simpa [SourceUnit.isPending] using hpending
    simp [Sink.write, Action.attempt, Store.writeUnit, SourceUnit.write, SourceUnit.writeText,
      hd, hc]
  · rintro ⟨text, rfl⟩ hwritten
    have hd : decode (encode text) = .ok text := Text.Utf8.decode_eq_ok_iff.2 rfl
    obtain ⟨old, hc⟩ : ∃ old, (s.units.get u).content = some old := by
      simpa [SourceUnit.isPending, Option.isSome_iff_exists] using hwritten
    simp [Sink.write, Action.attempt, Store.writeUnit, SourceUnit.write, SourceUnit.writeText,
      hd, hc]

/-! ### Outputs -/

/-- **What an output's sink takes,** from the first request for the output on, whatever is done
with this sink and with others.

* Whenever the output is asked for again, the same sink is given, and nothing happens.
* An artifact has the bytes that were written to it before it was first finalized.  As long as it
  was not, a write succeeds; from then on it is refused and changes nothing.
* A unit has the text whose bytes are the first bytes of a text that were written to it.  Bytes
  that are no text are refused at any time; the bytes of a text are taken while the unit has
  none, and refused from then on.  What is refused changes nothing. -/
theorem sink_takes (hnew : m.sink? name kind s = none) (location : Location)
    (sibling : Option FileHandle) :
    let sink := (m.outputFor location name kind sibling s).1
    let start := (m.outputFor location name kind sibling s).2
    (∀ uses location' sibling',
        m.outputFor location' name kind sibling' (m.use start uses) = (sink, m.use start uses)) ∧
      (kind ≠ .source → ∃ r, sink = .artifact r ∧ ∀ uses,
        let t := m.use start uses
        (t.artifacts.get r).bytes = taken r uses ∧
          ∀ bytes,
            (uses.any (Use.closes r) = false → ((sink.write bytes).attempt t).1 = .ok ()) ∧
            (uses.any (Use.closes r) = true →
              (sink.write bytes).attempt t = (.error (.artifactFinalized name), t))) ∧
      (kind = .source → ∃ u, sink = .source u ∧ ∀ uses,
        let t := m.use start uses
        (∀ text, (t.units.get u).content = some text ↔ FirstText u text uses) ∧
          ∀ bytes,
            (¬ IsText bytes → ∃ fault, decode bytes = .error fault ∧
              (sink.write bytes).attempt t = (.error (.invalidSource (.notText name fault)), t)) ∧
            (IsText bytes → (t.units.get u).isPending = true →
              ((sink.write bytes).attempt t).1 = .ok ()) ∧
            (IsText bytes → (t.units.get u).isPending = false →
              (sink.write bytes).attempt t = (.error (.sourceAlreadyWritten name), t))) := by
  intro sink start
  have hgiven : m.sink? name kind start = some sink :=
    m.sink?_outputFor location name kind sibling s
  refine ⟨fun uses location' sibling' => ?_, fun hk => ?_, ?_⟩
  · exact outputFor_of_sink? (sink?_use hgiven uses) location' sibling'
  · have hx := outputFor_artifact_of_new hk hnew location sibling
    have hsink : sink = .artifact (s.artifacts.alloc (.new name kind)).1 := congrArg Prod.fst hx
    have hstart : start = m.newOutput name kind s := congrArg Prod.snd hx
    refine ⟨_, hsink, fun uses => ?_⟩
    rw [hsink, hstart]
    refine ⟨?_, m.write_newOutput name kind s uses⟩
    rw [get_use_newOutput, bytes_foldl]
    exact List.nil_append _
  · rintro rfl
    have hx := outputFor_source_of_new hnew location sibling
    have hsink : sink = .source (s.units.alloc (.pending name)).1 := congrArg Prod.fst hx
    have hstart : start = m.newSource name s := congrArg Prod.snd hx
    refine ⟨_, hsink, fun uses => ?_⟩
    have ht := m.get_use_newSource name s uses
    rw [hsink, hstart]
    refine ⟨fun text => ?_, write_source (congrArg SourceUnit.name ht)⟩
    rw [ht, findSome?_text?_eq_some_iff]

/-- **Two outputs of one name:** the artifact has what was written before everything was finished,
and the source has the first text, which comes after bytes that are none. -/
theorem sink_takes_bare :
    let compiled := bare.1.outputFor .classOutput "A" .compiled none bare.2
    let source := bare.1.outputFor .classOutput "A" .source none bare.2
    bare.1.sink? "A" .compiled bare.2 = none ∧ bare.1.sink? "A" .source bare.2 = none ∧
      (∃ r, compiled.1 = .artifact r ∧
        let t := bare.1.use compiled.2
          [.call (.write (.artifact r) [1]), .call .finish, .call (.write (.artifact r) [2])]
        (t.artifacts.get r).bytes = [1] ∧
          (compiled.1.write [3]).attempt t = (.error (.artifactFinalized "A"), t)) ∧
      ∃ u, source.1 = .source u ∧
        let t := bare.1.use source.2
          [.call (.write (.source u) [0xFF]), .call (.write (.source u) [97]), .call .finish]
        (t.units.get u).content = some "a" ∧
          (source.1.write [98]).attempt t = (.error (.sourceAlreadyWritten "A"), t) := by
  intro compiled source
  have hcompiled : bare.1.sink? "A" .compiled bare.2 = none := rfl
  have hfresh : bare.1.sink? "A" .source bare.2 = none := rfl
  obtain ⟨-, hartifact, -⟩ := sink_takes hcompiled .classOutput none
  obtain ⟨-, -, hsource⟩ := sink_takes hfresh .classOutput none
  obtain ⟨r, hr, hartifact⟩ := hartifact (by decide)
  obtain ⟨u, hu, hsource⟩ := hsource rfl
  refine ⟨hcompiled, hfresh, ⟨r, hr, ?_⟩, u, hu, ?_⟩
  · intro t
    obtain ⟨hbytes, hwrites⟩ := hartifact
      [.call (.write (.artifact r) [1]), .call .finish, .call (.write (.artifact r) [2])]
    refine ⟨hbytes.trans ?_, (hwrites [3]).2 ?_⟩
    · simp [taken, Use.closes, Use.bytesFor]
    · simp [Use.closes]
  · intro t
    obtain ⟨hcontent, hwrites⟩ := hsource
      [.call (.write (.source u) [0xFF]), .call (.write (.source u) [97]), .call .finish]
    have hnoText : ¬ IsText [0xFF] := Text.Utf8.exists_fault_iff.1 ⟨.invalid 1 0, by decide +kernel⟩
    have htext : (t.units.get u).content = some "a" := by
      refine (hcontent "a").2 ⟨[.call (.write (.source u) [0xFF])], [.call .finish], rfl, ?_⟩
      simpa using hnoText
    refine ⟨htext, (hwrites [98]).2.2 ⟨"b", rfl⟩ ?_⟩
    rw [SourceUnit.isPending, htext]
    rfl

end FileManager
end LiveBuild
