/-
# Archives of members stored as they are

The simplest archive of given members: each member is its header, its name and its contents,
then come the directory records in the same order, and then the end record without a comment.
Names are UTF-8, and nothing is compressed.

If the numbers fit into their fields and no name comes twice, the archive is read as what was
packed: every member under its name, and nothing else (`ofBytes_pack`).  Going backwards through
the file, what looks like the beginning of an end record behind the true one is cut off by the
end of the file (`membersOf_append_of_short`), so the true one counts.
-/

import LiveBuild.Archive.Basic
import LiveBuild.Proofs.Text.Utf8
import Mathlib.Algebra.Group.Nat.Defs

namespace LiveBuild
namespace Archive

/-! ### Packing -/

/-- So many bytes of a number, least significant byte first. -/
def numberBytes : (width : Nat) → Nat → Bytes
  | 0, _ => []
  | width + 1, n => UInt8.ofNat n :: numberBytes width (n / 256)

/-- What the header and the directory record of a member both tell, from the version on. -/
def description (rawName contents : Bytes) : Bytes :=
  numberBytes 2 20 ++ numberBytes 2 0x0800 ++ numberBytes 6 0 ++
    numberBytes 4 (Checksum.crc32 contents).toNat ++ numberBytes 4 contents.length ++
    numberBytes 4 contents.length ++ numberBytes 2 rawName.length ++ numberBytes 2 0

/-- The header of a member. -/
def headerRecord (rawName contents : Bytes) : Bytes :=
  RecordForm.header.signature ++ description rawName contents

/-- A member with its header. -/
def packedMember (m : String × Bytes) : Bytes :=
  headerRecord (Text.Utf8.encode m.1) m.2 ++ (Text.Utf8.encode m.1 ++ m.2)

/-- The fixed part of a directory record. -/
def directoryFields (rawName contents : Bytes) (offset : Nat) : Bytes :=
  RecordForm.directory.signature ++ numberBytes 2 20 ++ description rawName contents ++
    numberBytes 10 0 ++ numberBytes 4 offset

/-- The directory record of a member whose header is at an offset. -/
def directoryRecord (offset : Nat) (m : String × Bytes) : Bytes :=
  directoryFields (Text.Utf8.encode m.1) m.2 offset ++ Text.Utf8.encode m.1

/-- The directory of members of which the first has its header at an offset. -/
def directoryOf : (offset : Nat) → List (String × Bytes) → Bytes
  | _, [] => []
  | offset, m :: ms => directoryRecord offset m ++ directoryOf (offset + (packedMember m).length) ms

/-- The end record of an archive without a comment. -/
def endRecord (count length offset : Nat) : Bytes :=
  RecordForm.ending.signature ++ numberBytes 4 0 ++ numberBytes 2 count ++ numberBytes 2 count ++
    numberBytes 4 length ++ numberBytes 4 offset ++ numberBytes 2 0

/-- Members one after the other. -/
def packedMembers (ms : List (String × Bytes)) : Bytes := ms.flatMap packedMember

/-- The archive of some members. -/
def pack (ms : List (String × Bytes)) : Bytes :=
  packedMembers ms ++ (directoryOf 0 ms ++
    endRecord ms.length (directoryOf 0 ms).length (packedMembers ms).length)

/-- What can be packed: no name comes twice, and all numbers fit into their fields. -/
structure Packable (ms : List (String × Bytes)) : Prop where
  nodup : (ms.map Prod.fst).Nodup
  count : ms.length < 0xFFFF
  name : ∀ m ∈ ms, (Text.Utf8.encode m.1).length < 0x10000
  size : (packedMembers ms).length < 0xFFFFFFFF

/-! ### Numbers -/

/-- A number takes as many bytes as it is given. -/
theorem length_numberBytes (width n : Nat) : (numberBytes width n).length = width := by
  induction width generalizing n with
  | zero => rfl
  | succ width ih => rw [numberBytes, List.length_cons, ih]

/-- A number that fits is read as it was written. -/
theorem ofLittleEndian_numberBytes {width n : Nat} (h : n < 256 ^ width) :
    ofLittleEndian (numberBytes width n) = n := by
  induction width generalizing n with
  | zero =>
    rw [Nat.pow_zero, Nat.lt_one_iff] at h
    rw [h]
    rfl
  | succ width ih =>
    rw [Nat.pow_succ] at h
    have hrest : ofLittleEndian (numberBytes width (n / 256)) = n / 256 := ih (by omega)
    show (UInt8.ofNat n).toNat + 256 * ofLittleEndian (numberBytes width (n / 256)) = n
    rw [hrest, UInt8.toNat_ofNat']
    omega

/-- The fixed part of a header has the length of its form. -/
theorem length_headerRecord (rawName contents : Bytes) :
    (headerRecord rawName contents).length = RecordForm.header.length := by
  simp only [headerRecord, description, List.length_append, length_numberBytes]
  rfl

/-- The fixed part of a directory entry has the length of its form. -/
theorem length_directoryFields (rawName contents : Bytes) (offset : Nat) :
    (directoryFields rawName contents offset).length = RecordForm.directory.length := by
  simp only [directoryFields, description, List.length_append, length_numberBytes]
  rfl

/-- The record at the end has the length of its form. -/
theorem length_endRecord (count length offset : Nat) :
    (endRecord count length offset).length = RecordForm.ending.length := by
  simp only [endRecord, List.length_append, length_numberBytes]
  rfl

/-- What begins with a signature begins a record of that form. -/
theorem begins_append (form : RecordForm) (s : Bytes) : form.begins (form.signature ++ s) = true := by
  rw [RecordForm.begins, Text.dropPrefix?_eq_some_iff.2 rfl, Option.isSome_some]

/-! ### One member -/

/-- A member as its directory record describes it. -/
def memberAt (offset : Nat) (m : String × Bytes) : Member :=
  { name := m.1
    rawName := Text.Utf8.encode m.1
    comment := ""
    isEncrypted := false
    hasCipher := false
    method := 0
    checksum := Checksum.crc32 m.2
    packedSize := m.2.length
    size := m.2.length
    header := offset }

/-- What a directory record begins with. -/
theorem fields_directoryFields (rawName contents tail : Bytes) (offset : Nat) :
    let s := directoryFields rawName contents offset ++ tail
    littleEndian 2 8 s = 0x0800 ∧ littleEndian 2 10 s = 0 ∧
      littleEndian 4 16 s = ofLittleEndian (numberBytes 4 (Checksum.crc32 contents).toNat) ∧
      littleEndian 4 20 s = ofLittleEndian (numberBytes 4 contents.length) ∧
      littleEndian 4 24 s = ofLittleEndian (numberBytes 4 contents.length) ∧
      littleEndian 2 28 s = ofLittleEndian (numberBytes 2 rawName.length) ∧
      littleEndian 2 30 s = 0 ∧ littleEndian 2 32 s = 0 ∧
      littleEndian 4 42 s = ofLittleEndian (numberBytes 4 offset) :=
  ⟨rfl, rfl, rfl, rfl, rfl, rfl, rfl, rfl, rfl⟩

/-- A name that is flagged as encoded is read as it was. -/
theorem text_encode (s : String) : text 0x0800 (Text.Utf8.encode s) = s := by
  rw [text, if_pos (by decide), Text.Utf8.decodeLossy_encode]

/-- A member without extra fields is as it was. -/
theorem Member.extend?_nil (m : Member) : m.extend? [] = some m := rfl

/-- **A directory record is read as what it was written of.** -/
theorem ofRecord?_directoryRecord (m : String × Bytes) (offset : Nat)
    (hname : (Text.Utf8.encode m.1).length < 0x10000) (hsize : m.2.length < 0x100000000)
    (hoffset : offset < 0x100000000) (rest : Bytes) :
    Member.ofRecord? (directoryRecord offset m ++ rest) = some (memberAt offset m, rest) := by
  have hcut : directoryRecord offset m ++ rest =
      directoryFields (Text.Utf8.encode m.1) m.2 offset ++ (Text.Utf8.encode m.1 ++ rest) :=
    List.append_assoc ..
  obtain ⟨h8, h10, h16, h20, h24, h28, h30, h32, h42⟩ :=
    fields_directoryFields (Text.Utf8.encode m.1) m.2 (Text.Utf8.encode m.1 ++ rest) offset
  have hsum : (Checksum.crc32 m.2).toNat < 256 ^ 4 := UInt32.toNat_lt _
  rw [ofLittleEndian_numberBytes hsum] at h16
  rw [ofLittleEndian_numberBytes hsize] at h20 h24
  rw [ofLittleEndian_numberBytes hname] at h28
  rw [ofLittleEndian_numberBytes hoffset] at h42
  have hfits : RecordForm.directory.fits
      (directoryFields (Text.Utf8.encode m.1) m.2 offset ++ (Text.Utf8.encode m.1 ++ rest)) = true := by
    rw [RecordForm.fits, List.length_append, length_directoryFields, decide_eq_true_eq]
    exact Nat.le_add_right ..
  have hbegins : RecordForm.directory.begins
      (directoryFields (Text.Utf8.encode m.1) m.2 offset ++ (Text.Utf8.encode m.1 ++ rest)) = true := by
    simp only [directoryFields, List.append_assoc]
    exact begins_append ..
  have hdrop : (directoryFields (Text.Utf8.encode m.1) m.2 offset ++
      (Text.Utf8.encode m.1 ++ rest)).drop RecordForm.directory.length =
        Text.Utf8.encode m.1 ++ rest := List.drop_left' (length_directoryFields ..)
  have hcomment : text 0x0800 [] = "" := text_encode ""
  rw [hcut, Member.ofRecord?]
  simp only [h8, h10, h16, h20, h24, h28, h30, h32, h42, hfits, hbegins, hdrop, Bool.not_true,
    Bool.false_eq_true, or_self, if_false, Nat.add_zero, List.length_append,
    Nat.not_lt.2 (Nat.le_add_right _ _), List.take_left, List.drop_left, List.take_zero,
    List.drop_zero]
  rw [text_encode, hcomment, UInt32.ofNat_toNat, Member.extend?_nil]
  rfl

/-! ### Rows of members -/

/-- The members of a packed archive, of which the first has its header at an offset. -/
def placed : (offset : Nat) → List (String × Bytes) → List (String × Member)
  | _, [] => []
  | offset, m :: ms => (m.1, memberAt offset m) :: placed (offset + (packedMember m).length) ms

/-- The members are placed under their names, in their order. -/
theorem names_placed (offset : Nat) (ms : List (String × Bytes)) :
    (placed offset ms).map Prod.fst = ms.map Prod.fst := by
  induction ms generalizing offset with
  | nil => rfl
  | cons m ms ih => rw [placed, List.map_cons, List.map_cons, ih]

/-- Every member is where those before it end. -/
theorem mem_placed (offset : Nat) {ms : List (String × Bytes)} {m : String × Bytes} (h : m ∈ ms) :
    ∃ before after, ms = before ++ m :: after ∧
      (m.1, memberAt (offset + (packedMembers before).length) m) ∈ placed offset ms := by
  induction ms generalizing offset with
  | nil => cases h
  | cons n ms ih =>
    rcases List.mem_cons.1 h with rfl | h
    · exact ⟨[], ms, rfl, List.mem_cons_self⟩
    · obtain ⟨before, after, rfl, hmem⟩ := ih (offset + (packedMember n).length) h
      refine ⟨n :: before, after, rfl, List.mem_cons_of_mem _ ?_⟩
      rw [packedMembers, List.flatMap_cons, List.length_append, ← Nat.add_assoc]
      exact hmem

/-- A packed member takes its header, its name and its contents. -/
theorem length_packedMember (m : String × Bytes) :
    (packedMember m).length = 30 + ((Text.Utf8.encode m.1).length + m.2.length) := by
  rw [packedMember, List.length_append, length_headerRecord, List.length_append]
  rfl

/-- **The directory is read member by member.** -/
theorem members?_directoryOf {d : Directory} (hshift : d.shift = 0) (offset : Nat)
    (table : Table String Member) {ms : List (String × Bytes)} (rest : Bytes)
    (hname : ∀ m ∈ ms, (Text.Utf8.encode m.1).length < 0x10000)
    (hstart : offset + (packedMembers ms).length ≤ d.start) (hsize : d.start < 0xFFFFFFFF)
    (hnodup : (table.keys ++ ms.map Prod.fst).Nodup) :
    ∃ t, d.members? ms.length (directoryOf offset ms ++ rest) table = some t ∧
      t.entries = table.entries ++ placed offset ms := by
  induction ms generalizing offset table with
  | nil => exact ⟨table, rfl, (List.append_nil _).symm⟩
  | cons m ms ih =>
    rw [List.forall_mem_cons] at hname
    rw [packedMembers, List.flatMap_cons, List.length_append, ← packedMembers] at hstart
    have hlength := length_packedMember m
    have hrecord := ofRecord?_directoryRecord m offset hname.1 (by omega) (by omega)
      (directoryOf (offset + (packedMember m).length) ms ++ rest)
    have hnew : table.find? m.1 = none := by
      rw [Table.find?_eq_none_iff]
      intro hmem
      rw [List.map_cons, List.nodup_append] at hnodup
      exact hnodup.2.2 _ hmem _ List.mem_cons_self rfl
    have hentries := Table.entries_insert_of_new (memberAt offset m) hnew
    have hkeys : (table.insert m.1 (memberAt offset m)).keys = table.keys ++ [m.1] := by
      rw [Table.keys, hentries, List.map_append]
      rfl
    obtain ⟨t, ht, hall⟩ := ih (offset + (packedMember m).length)
      (table.insert m.1 (memberAt offset m)) hname.2 (by omega)
      (by rwa [hkeys, List.append_assoc])
    refine ⟨t, ?_, by rw [hall, hentries, List.append_assoc]; rfl⟩
    have hbefore : ¬ d.start ≤ (memberAt offset m).header := by
      show ¬ d.start ≤ offset
      omega
    rw [List.length_cons, directoryOf, List.append_assoc, Directory.members?, hrecord]
    simp only [Option.bind_eq_bind, Option.bind_some, hshift, Nat.zero_add]
    rw [if_neg hbefore]
    exact ht

/-- Behind its header and its name, a member has its contents. -/
theorem behindHeader_packedMember (m : String × Bytes)
    (hname : (Text.Utf8.encode m.1).length < 0x10000) (after : Bytes) :
    Member.behindHeader (packedMember m ++ after) = m.2 ++ after := by
  have hcut : packedMember m ++ after =
      headerRecord (Text.Utf8.encode m.1) m.2 ++ Text.Utf8.encode m.1 ++ (m.2 ++ after) := by
    simp only [packedMember, List.append_assoc]
  have h26 : littleEndian 2 26 (packedMember m ++ after) =
      ofLittleEndian (numberBytes 2 (Text.Utf8.encode m.1).length) := rfl
  have h28 : littleEndian 2 28 (packedMember m ++ after) = 0 := rfl
  rw [Member.behindHeader, h26, h28, ofLittleEndian_numberBytes hname, hcut]
  exact List.drop_left' (by rw [List.length_append, length_headerRecord]; rfl)

/-- **A member is read from where it was put.** -/
theorem read_memberAt (m : String × Bytes) (hname : (Text.Utf8.encode m.1).length < 0x10000)
    (before after : Bytes) :
    (memberAt before.length m).read (before ++ (packedMember m ++ after)) = .ok m.2 := by
  have hfits : RecordForm.header.fits (packedMember m ++ after) = true := by
    rw [RecordForm.fits, List.length_append, length_packedMember, decide_eq_true_eq]
    show 30 ≤ _
    omega
  have hbegins : RecordForm.header.begins (packedMember m ++ after) = true := by
    simp only [packedMember, headerRecord, List.append_assoc]
    exact begins_append ..
  have hdata : (memberAt before.length m).data (before ++ (packedMember m ++ after)) = .ok m.2 := by
    have hheader : (before ++ (packedMember m ++ after)).drop (memberAt before.length m).header =
        packedMember m ++ after := List.drop_left
    have htake : (m.2 ++ after).take (memberAt before.length m).packedSize = m.2 := List.take_left
    have hplain : (memberAt before.length m).isEncrypted = false := rfl
    simp only [Member.data, hheader, hplain, hfits, hbegins, Bool.not_true, Bool.false_eq_true,
      if_false, behindHeader_packedMember m hname, htake]
  have hunpack : (memberAt before.length m).unpack m.2 = .ok m.2 := rfl
  have hverify : (memberAt before.length m).verify m.2 = .ok m.2 := if_pos rfl
  rw [Member.read, hdata]
  show ((memberAt before.length m).unpack m.2).bind _ = _
  rw [hunpack]
  exact hverify

/-! ### The whole archive -/

/-- The places of a signature in two stretches, of which the second begins with it. -/
theorem exists_occurrences_append {form : RecordForm} {b : UInt8} {s : Bytes}
    (hbegins : form.begins (b :: s) = true) (front : Bytes) (index : Nat) :
    ∃ before, form.occurrences index (front ++ b :: s) =
      before ++ (index + front.length, b :: s) :: form.occurrences (index + front.length + 1) s := by
  induction front generalizing index with
  | nil => exact ⟨[], by rw [List.nil_append, RecordForm.occurrences, if_pos hbegins]; rfl⟩
  | cons c front ih =>
    obtain ⟨before, hbefore⟩ := ih (index + 1)
    have hindex : index + 1 + front.length = index + (c :: front).length := by
      rw [List.length_cons]
      omega
    rw [List.cons_append, RecordForm.occurrences, hbefore, hindex]
    split
    · exact ⟨_ :: before, rfl⟩
    · exact ⟨before, rfl⟩

/-- Behind an occurrence there is no more than the whole. -/
theorem length_le_of_mem_occurrences {form : RecordForm} {index : Nat} {s : Bytes}
    {c : Nat × Bytes} (h : c ∈ form.occurrences index s) : c.2.length ≤ s.length := by
  induction s generalizing index with
  | nil => cases h
  | cons b s ih =>
    rw [RecordForm.occurrences] at h
    split at h
    · rcases List.mem_cons.1 h with rfl | h
      · exact Nat.le_refl _
      · exact Nat.le_succ_of_le (ih h)
    · exact Nat.le_succ_of_le (ih h)

/-- **Candidates that are cut off do not count,** as long as another one leads to members. -/
theorem membersOf_append_of_short (file : Bytes) {cs : List (Nat × Bytes)}
    (h : ∀ c ∈ cs, c.2.length < RecordForm.ending.length) (noted : Option Fault)
    (rest : List (Nat × Bytes)) :
    ∃ noted', membersOf file noted (cs ++ rest) = membersOf file noted' rest := by
  induction cs generalizing noted with
  | nil => exact ⟨noted, rfl⟩
  | cons c cs ih =>
    rw [List.forall_mem_cons] at h
    have hread : EndRecord.read c.2 = .error .inputOutput := by
      rw [EndRecord.read, RecordForm.fits, decide_eq_false (Nat.not_le.2 h.1)]
      rfl
    obtain ⟨noted', hrest⟩ := ih h.2 (some (noted.getD .inputOutput))
    refine ⟨noted', ?_⟩
    rw [List.cons_append, membersOf, hread]
    exact hrest

/-- The end record tells how many members there are and where the directory is. -/
theorem read_endRecord {count offset : Nat} (length : Nat) (hcount : count < 0x10000)
    (hoffset : offset < 0x100000000) :
    EndRecord.read (endRecord count length offset) = .ok ⟨0, 0, count, count, offset⟩ := by
  have hfits : RecordForm.ending.fits (endRecord count length offset) = true := by
    rw [RecordForm.fits, length_endRecord]
    decide
  have h4 : littleEndian 2 4 (endRecord count length offset) = 0 := rfl
  have h6 : littleEndian 2 6 (endRecord count length offset) = 0 := rfl
  have h8 : littleEndian 2 8 (endRecord count length offset) =
      ofLittleEndian (numberBytes 2 count) := rfl
  have h10 : littleEndian 2 10 (endRecord count length offset) =
      ofLittleEndian (numberBytes 2 count) := rfl
  have h16 : littleEndian 4 16 (endRecord count length offset) =
      ofLittleEndian (numberBytes 4 offset) := rfl
  have h20 : littleEndian 2 20 (endRecord count length offset) = 0 := rfl
  rw [EndRecord.read, hfits, h4, h6, h8, h10, h16, h20, length_endRecord,
    ofLittleEndian_numberBytes hcount, ofLittleEndian_numberBytes hoffset]
  rfl

/-- What a stretch of a file begins with is the first in it. -/
theorem exists_between_eq {form : RecordForm} {b : UInt8} {s : Bytes}
    (hbegins : form.begins (b :: s) = true) (front rest : Bytes) :
    ∃ c cs, form.between (front ++ (b :: s ++ rest)) front.length (front.length + (b :: s).length) =
      (front.length, c) :: cs := by
  have htake : (front ++ (b :: s ++ rest)).take (front.length + (b :: s).length) =
      front ++ b :: s := by
    rw [← List.append_assoc, ← List.length_append, List.take_left]
  rw [RecordForm.between, htake, List.drop_left, RecordForm.occurrences, if_pos hbegins]
  exact ⟨_, _, rfl⟩

/-- **The end record leads to the directory,** which is right before it. -/
theorem directory_endRecord {ms : List (String × Bytes)} (hcount : ms.length < 0xFFFF)
    {front : Bytes} (hoffset : front.length < 0xFFFFFFFF) (offset : Nat) (rest : Bytes) :
    (EndRecord.mk 0 0 ms.length ms.length front.length).directory
        (front ++ (directoryOf offset ms ++ rest)) (front.length + (directoryOf offset ms).length) =
      .ok (some ⟨ms.length, front.length, 0⟩) := by
  have hflow : (EndRecord.mk 0 0 ms.length ms.length front.length).mayOverflow = false := by
    rw [EndRecord.mayOverflow, decide_eq_false_iff_not, not_or]
    exact ⟨Nat.ne_of_lt hcount, Nat.ne_of_lt hoffset⟩
  rw [EndRecord.directory, hflow]
  simp only [Bool.false_eq_true, if_false]
  cases ms with
  | nil =>
    simp only [EndRecord.ownDirectory, EndRecord.directoryAt?, directoryOf, List.length_nil,
      Nat.add_zero, Nat.max_self, Nat.sub_self, if_true]
  | cons m ms =>
    have hbegins : RecordForm.directory.begins (directoryOf offset (m :: ms)) = true := by
      simp only [directoryOf, directoryRecord, directoryFields, List.append_assoc]
      exact begins_append ..
    obtain ⟨b, s, hdirectory⟩ : ∃ b s, directoryOf offset (m :: ms) = b :: s := ⟨_, _, rfl⟩
    rw [hdirectory] at hbegins ⊢
    obtain ⟨c, cs, hbetween⟩ := exists_between_eq hbegins front rest
    have hsome : ¬ (m :: ms).length = 0 := Nat.succ_ne_zero _
    have hbehind : ¬ front.length + (b :: s).length ≤ front.length := by
      rw [List.length_cons]
      omega
    rw [EndRecord.ownDirectory]
    simp only [hsome, hbehind, hbetween, if_false, EndRecord.directoryAt?, Nat.sub_self, if_true]

/-- **The last end record that is whole counts,** if it leads to members. -/
theorem membersOf_of_endRecord {front : Bytes} {count length offset : Nat} {d : Directory}
    {t : Table String Member} (hcount : count < 0x10000) (hoffset : offset < 0x100000000)
    (hdirectory : (EndRecord.mk 0 0 count count offset).directory
      (front ++ endRecord count length offset) front.length = .ok (some d))
    (ht : d.table? (front ++ endRecord count length offset) = some t) :
    membersOf (front ++ endRecord count length offset) none
      (RecordForm.ending.occurrences 0 (front ++ endRecord count length offset)).reverse = .ok t := by
  have hbegins : RecordForm.ending.begins (endRecord count length offset) = true := by
    simp only [endRecord, List.append_assoc]
    exact begins_append ..
  have hread := read_endRecord length hcount hoffset
  have hlength := length_endRecord count length offset
  obtain ⟨b, s, hend⟩ : ∃ b s, endRecord count length offset = b :: s := ⟨_, _, rfl⟩
  rw [hend] at hbegins hread hlength hdirectory ht ⊢
  obtain ⟨before, hplaces⟩ := exists_occurrences_append hbegins front 0
  have hshort : ∀ c ∈ (RecordForm.ending.occurrences (0 + front.length + 1) s).reverse,
      c.2.length < RecordForm.ending.length := by
    intro c hc
    rw [← hlength]
    exact Nat.lt_succ_of_le (length_le_of_mem_occurrences (List.mem_reverse.1 hc))
  rw [hplaces, List.reverse_append, List.reverse_cons, List.append_assoc]
  obtain ⟨noted, hnoted⟩ := membersOf_append_of_short (front ++ b :: s) hshort none
    ([(0 + front.length, b :: s)] ++ before.reverse)
  rw [hnoted, List.singleton_append, Nat.zero_add, membersOf, hread]
  simp only [hdirectory, Option.bind_some, ht]

/-- Every member is somewhere in the file. -/
theorem exists_pack_eq {ms before after : List (String × Bytes)} {m : String × Bytes}
    (h : ms = before ++ m :: after) :
    ∃ rest, pack ms = packedMembers before ++ (packedMember m ++ rest) := by
  have hrow : packedMembers ms = packedMembers before ++ (packedMember m ++ packedMembers after) := by
    rw [h, packedMembers, List.flatMap_append, List.flatMap_cons]
    rfl
  obtain ⟨rest, hrest⟩ : ∃ rest, pack ms = packedMembers ms ++ rest := ⟨_, rfl⟩
  exact ⟨packedMembers after ++ rest, by rw [hrest, hrow, List.append_assoc, List.append_assoc]⟩

/-- **An archive is read as what was packed.** -/
theorem ofBytes_pack {ms : List (String × Bytes)} (h : Packable ms) :
    ∃ a, ofBytes (pack ms) = .ok a ∧ a.names = ms.map Prod.fst ∧
      ∀ m ∈ ms, a.read? m.1 = some (.ok m.2) := by
  have hcount := h.count
  have hsize := h.size
  obtain ⟨t, ht, hentries⟩ := members?_directoryOf (d := ⟨ms.length, (packedMembers ms).length, 0⟩)
    rfl 0 Table.empty (endRecord ms.length (directoryOf 0 ms).length (packedMembers ms).length) h.name
    (Nat.le_of_eq (Nat.zero_add _)) hsize h.nodup
  have hpack : pack ms = packedMembers ms ++ directoryOf 0 ms ++
      endRecord ms.length (directoryOf 0 ms).length (packedMembers ms).length :=
    (List.append_assoc ..).symm
  -- the end record is found first, and through it the directory
  have hmembers : membersOf (pack ms) none (RecordForm.ending.occurrences 0 (pack ms)).reverse =
      .ok t := by
    rw [hpack]
    refine membersOf_of_endRecord (d := ⟨ms.length, (packedMembers ms).length, 0⟩) (by omega)
      (by omega) ?_ ?_
    · rw [List.append_assoc, List.length_append]
      exact directory_endRecord hcount hsize 0 _
    · rw [List.append_assoc, Directory.table?, List.drop_left]
      exact ht
  refine ⟨⟨pack ms, t⟩, by rw [ofBytes, hmembers]; rfl, ?_, fun m hm => ?_⟩
  · rw [names, Table.keys, hentries]
    exact names_placed 0 ms
  · obtain ⟨before, after, hms, hplaced⟩ := mem_placed 0 hm
    rw [Nat.zero_add] at hplaced
    have hfind : t.find? m.1 = some (memberAt (packedMembers before).length m) := by
      rw [Table.find?_eq_some_iff, hentries]
      exact hplaced
    obtain ⟨rest, hfile⟩ := exists_pack_eq hms
    have hread : (memberAt (packedMembers before).length m).read (pack ms) = .ok m.2 := by
      rw [hfile]
      exact read_memberAt m (h.name m hm) _ _
    rw [read?, hfind]
    exact congrArg some hread

end Archive
end LiveBuild
