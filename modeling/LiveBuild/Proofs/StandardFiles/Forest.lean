/-
# Listings with sub-packages

A listing with sub-packages goes down into directories and makes up the names of the packages on
the way; a listing without takes a package's name and looks for its directory.  Under a root a
sub-package is the directory that some names lead to from the package's own:

| | from the package `p` and its directory | reached by names `ns` |
| --- | --- | --- |
| directory | `root.join (toPath p)` | `Path.below` |
| package | `p` | `QualifiedName.below` |

As long as no name has a dot in it, both ways agree (`join_toPath_below`) and different names are
different packages (`below_inj`).  What there is below a package can be reached by listing it, with
one exception: the empty path is no directory, and still names lead on from it.  `ForestBelow` asks
for both, and for the second alone where no path is empty (`ForestBelow.of_nonempty`).  The leaves of a directory with sub-packages are those of the
directories in its `subtree`, in some order (`leaves_perm`).  Roots may overlap: a package can have a
directory under several of them.  So the packages of a forest are counted once for all roots, and
then what is listed with sub-packages is what is listed without them for each package
(`list_recurse`).
-/

import LiveBuild.FileSystem.Edit
import LiveBuild.Proofs.Finder.Backing
import LiveBuild.Proofs.StandardFiles.Leaves
import Mathlib.Data.List.Dedup
import Mathlib.Data.List.Flatten
import Mathlib.Data.List.Induction
import Mathlib.Data.List.Perm.Basic
import Mathlib.Data.List.Sort

namespace LiveBuild

open QualifiedName

/-! ### Lists put together in another order -/

/-- Going through pairs row by row or column by column gives the same, in some order. -/
theorem flatMap_flatMap_perm {α β γ : Type} (as : List α) (bs : List β) (f : α → β → List γ) :
    (as.flatMap fun a => bs.flatMap (f a)).Perm (bs.flatMap fun b => as.flatMap fun a => f a b) := by
  induction as with
  | nil => simp
  | cons a as ih =>
    simp only [List.flatMap_cons]
    exact (ih.append_left _).trans (List.flatMap_append_perm ..)

/-- What gives nothing can be left out. -/
theorem flatMap_perm_of_subset {α β : Type} [DecidableEq α] {as bs : List α} {f : α → List β}
    (has : as.Nodup) (hbs : bs.Nodup) (hsub : ∀ a ∈ as, a ∈ bs)
    (hnil : ∀ b ∈ bs, b ∉ as → f b = []) : (as.flatMap f).Perm (bs.flatMap f) := by
  have hin : as.Perm (bs.filter (· ∈ as)) := by
    refine (List.perm_ext_iff_of_nodup has (hbs.filter _)).2 fun a => ?_
    simp only [List.mem_filter, decide_eq_true_eq]
    exact ⟨fun ha => ⟨hsub a ha, ha⟩, And.right⟩
  have hout : (bs.filter fun b => !decide (b ∈ as)).flatMap f = [] := by
    rw [List.flatMap_eq_nil_iff]
    intro b hb
    simp only [List.mem_filter, Bool.not_eq_true', decide_eq_false_iff_not] at hb
    exact hnil b hb.1 hb.2
  have hsplit := (List.filter_append_perm (· ∈ as) bs).flatMap_right f
  rw [List.flatMap_append, hout, List.append_nil] at hsplit
  exact (hin.flatMap_right f).trans hsplit

/-! ### Down from a directory, down from a package -/

/-- Where names lead from a directory. -/
def Path.below (dir : Path) (ns : List FileName) : Path := ns.foldl (fun d n => d.child n.text) dir

/-- The package that names lead to from a package. -/
def QualifiedName.below (p : String) (ns : List FileName) : String :=
  ns.foldl (fun q n => member q n.text) p

variable {fs : FileSystem} {p : String} {dir : Path} {ns ns' : List FileName}

namespace Path

@[simp] theorem below_nil (dir : Path) : dir.below [] = dir := rfl

@[simp] theorem below_cons (dir : Path) (n : FileName) (ns : List FileName) :
    dir.below (n :: ns) = (dir.child n.text).below ns := rfl

/-- Names lead on from where the names before them led. -/
theorem below_append (dir : Path) (ns ms : List FileName) :
    dir.below (ns ++ ms) = (dir.below ns).below ms := List.foldl_append ..

/-- The last name is a name in the directory that the others lead to. -/
theorem below_concat (dir : Path) (ns : List FileName) (n : FileName) :
    dir.below (ns ++ [n]) = (dir.below ns).child n.text := List.foldl_concat ..

/-- From a path that is not empty no names lead to the empty one. -/
theorem below_nonempty (hdir : dir.text ≠ "") (ns : List FileName) : (dir.below ns).text ≠ "" := by
  induction ns generalizing dir with
  | nil => exact hdir
  | cons n ns ih => exact ih (child_nonempty dir n)

end Path

/-- No name in the list has a dot in it. -/
def Dotless (ns : List FileName) : Prop := ∀ n ∈ ns, '.' ∉ n.text.toList

/-- A list without dots has none at its end and none before. -/
theorem Dotless.of_concat {n : FileName} (h : Dotless (ns ++ [n])) :
    Dotless ns ∧ '.' ∉ n.text.toList :=
  ⟨fun m hm => h m (List.mem_append_left _ hm), h n (by simp)⟩

namespace QualifiedName

/-- A file name without dots is a segment of a qualified name. -/
theorem isSegment_fileName {n : FileName} (h : '.' ∉ n.text.toList) : IsSegment n.text :=
  ⟨n.nonempty, h, n.noSlash⟩

/-- A segment in a package, or in the default one, is a package. -/
theorem isPackage_member (hp : p = "" ∨ IsPackage p) {t : String} (ht : IsSegment t) :
    IsPackage (member p t) := by
  rcases hp with rfl | hp
  · exact .segment ht
  · rw [member_eq hp]
    exact .inside hp ht

/-- The package of a member is the package, the default one included. -/
theorem package_member_of_segment (hp : p = "" ∨ IsPackage p) {t : String} (ht : IsSegment t) :
    package (member p t) = p := by
  rcases hp with rfl | hp
  · exact package_of_noDot ht.noDot
  · exact package_member hp ht

/-- A sub-package has a longer name than its package. -/
theorem bytes_lt_member (p : String) (n : FileName) :
    p.utf8ByteSize < (member p n.text).utf8ByteSize := by
  have hn : n.text.utf8ByteSize ≠ 0 := fun h => n.nonempty (String.utf8ByteSize_eq_zero_iff.1 h)
  unfold member
  split
  · rename_i hp
    rw [String.isEmpty_iff.1 hp]
    exact Nat.pos_of_ne_zero hn
  · simp only [String.utf8ByteSize_append]
    omega

/-- The path of a member is its text behind what the paths of the package begin with. -/
theorem pathPrefix_append (hp : p = "" ∨ IsPackage p) {t : String} (ht : IsSegment t) :
    pathPrefix p ++ t = toPath (member p t) := by
  rcases hp with rfl | hp
  · rw [pathPrefix_default, String.empty_append]
    exact (Text.exchange_of_notMem ht.noDot).symm
  · rw [pathPrefix_of_isPackage hp, toPath_member hp ht]

@[simp] theorem below_nil (p : String) : below p [] = p := rfl

@[simp] theorem below_cons (p : String) (n : FileName) (ns : List FileName) :
    below p (n :: ns) = below (member p n.text) ns := rfl

/-- The last name is a member of the package that the others lead to. -/
theorem below_concat (p : String) (ns : List FileName) (n : FileName) :
    below p (ns ++ [n]) = member (below p ns) n.text := List.foldl_concat ..

/-- Names without dots lead from a package to a package. -/
theorem isPackage_below (hp : p = "" ∨ IsPackage p) (hns : Dotless ns) :
    below p ns = "" ∨ IsPackage (below p ns) := by
  induction ns using List.reverseRecOn with
  | nil => exact hp
  | append_singleton ns n ih =>
    obtain ⟨hns, hn⟩ := hns.of_concat
    rw [below_concat]
    exact .inr (isPackage_member (ih hns) (isSegment_fileName hn))

/-- Names lead to packages whose names are no shorter. -/
theorem bytes_le_below (p : String) (ns : List FileName) :
    p.utf8ByteSize ≤ (below p ns).utf8ByteSize := by
  induction ns generalizing p with
  | nil => exact Nat.le_refl _
  | cons n ns ih => exact Nat.le_trans (Nat.le_of_lt (bytes_lt_member p n)) (ih _)

/-- Down from a package there is no way back to it. -/
theorem below_concat_ne (p : String) (ns : List FileName) (n : FileName) :
    below p (ns ++ [n]) ≠ p := by
  intro h
  have hle := bytes_le_below p ns
  have hlt := bytes_lt_member (below p ns) n
  rw [← below_concat, h] at hlt
  omega

/-- **Different names lead to different packages,** if there is no dot in them. -/
theorem below_inj (hp : p = "" ∨ IsPackage p) (hns : Dotless ns) (hns' : Dotless ns')
    (h : below p ns = below p ns') : ns = ns' := by
  induction ns using List.reverseRecOn generalizing ns' with
  | nil =>
    rcases List.eq_nil_or_concat' ns' with rfl | ⟨ms, m, rfl⟩
    · rfl
    · exact absurd h.symm (below_concat_ne p ms m)
  | append_singleton ns n ih =>
    obtain ⟨hns, hn⟩ := hns.of_concat
    rcases List.eq_nil_or_concat' ns' with rfl | ⟨ms, m, rfl⟩
    · exact absurd h (below_concat_ne p ns n)
    · obtain ⟨hms, hm⟩ := hns'.of_concat
      rw [below_concat, below_concat] at h
      have hpackage := congrArg package h
      rw [package_member_of_segment (isPackage_below hp hns) (isSegment_fileName hn),
        package_member_of_segment (isPackage_below hp hms) (isSegment_fileName hm)] at hpackage
      rw [hpackage] at h
      rw [ih hns hms hpackage, fileName_ext (member_inj.1 h)]

/-- **A sub-package is looked for where the way down leads.** -/
theorem join_toPath_below (root : Path) (hp : p = "" ∨ IsPackage p) (hns : Dotless ns) :
    root.join (toPath (below p ns)) = (root.join (toPath p)).below ns := by
  induction ns generalizing p with
  | nil => rw [below_nil, Path.below_nil]
  | cons n ns ih =>
    obtain ⟨hn, hns⟩ := List.forall_mem_cons.1 hns
    have ht := isSegment_fileName hn
    have hstep : root.join (toPath (member p n.text)) = (root.join (toPath p)).child n.text := by
      rw [← root.join_pathPrefix hp, pathPrefix_append hp ht]
    rw [below_cons, Path.below_cons, ih (.inr (isPackage_member hp ht)) hns, hstep]

end QualifiedName

namespace Directories

/-! ### The directories below one -/

/-- The way down to a directory starts in a directory, unless it starts at the empty path. -/
theorem isDirectory_of_below (hdir : dir.text ≠ "") (h : fs.isDirectory (dir.below ns) = true) :
    fs.isDirectory dir = true := by
  induction ns generalizing dir with
  | nil => exact h
  | cons n ns ih =>
    obtain ⟨a, ha⟩ := FileSystem.isDirectory_iff.1 (ih (Path.child_nonempty dir n) h)
    obtain ⟨-, hdir, -⟩ := FileSystem.readDirectory_of_target?_child hdir ha
    exact hdir

/-- The names that lead to a directory and to those below it. -/
def subtree (fs : FileSystem) (dir : Path) : List (List FileName) :=
  if _h : fs.isDirectory dir then
    [] :: (entriesIn fs dir).flatMap fun n => (subtree fs (dir.child n.text)).map (n :: ·)
  else []
termination_by FileSystem.maxPathBytes - dir.text.utf8ByteSize
decreasing_by
  have h₁ := bytes_lt_child dir n
  have h₂ := FileSystem.bytes_lt_of_isDirectory _h
  omega

/-- **The subtree of a directory** has the ways down that lead to directories. -/
theorem mem_subtree_iff : ns ∈ subtree fs dir ↔
    fs.isDirectory dir = true ∧ fs.isDirectory (dir.below ns) = true := by
  induction ns generalizing dir with
  | nil =>
    rw [subtree, Path.below_nil, and_self]
    split
    · rename_i hdir
      exact iff_of_true List.mem_cons_self hdir
    · rename_i hdir
      exact iff_of_false List.not_mem_nil hdir
  | cons n ns ih =>
    rw [subtree, Path.below_cons]
    split
    · rename_i hdir
      simp only [List.mem_cons, List.cons_ne_nil, false_or, List.mem_flatMap, List.mem_map,
        List.cons.injEq]
      constructor
      · rintro ⟨m, -, ms, hms, rfl, rfl⟩
        exact ⟨hdir, (ih.1 hms).2⟩
      · rintro ⟨-, hns⟩
        have hchild := isDirectory_of_below (Path.child_nonempty dir n) hns
        exact ⟨n, mem_entriesIn_of_isDirectory hdir hchild, ns, ih.2 ⟨hchild, hns⟩, rfl, rfl⟩
    · rename_i hdir
      exact iff_of_false List.not_mem_nil fun hns => hdir hns.1

/-- **Every way down is gone once.** -/
theorem nodup_subtree (fs : FileSystem) (dir : Path) : (subtree fs dir).Nodup := by
  fun_induction subtree fs dir with
  | case1 dir hdir ih =>
    rw [List.nodup_cons, List.nodup_flatMap]
    refine ⟨by simp, fun n _ => (ih n).map fun _ _ h => (List.cons.inj h).2, ?_⟩
    -- ways that begin with different names have none in common
    refine (nodup_entriesIn fs dir).imp fun {n m} hne => ?_
    intro ns hn hm
    obtain ⟨_, -, rfl⟩ := List.mem_map.1 hn
    obtain ⟨_, -, h⟩ := List.mem_map.1 hm
    exact hne (List.cons.inj h).1.symm
  | case2 dir hdir => exact List.nodup_nil

/-- **The leaves of a directory with sub-packages** are those of all directories below it, each
with the package that the way down leads to. -/
theorem leaves_perm (fs : FileSystem) (dir : Path) (p : String) :
    (leaves fs true dir p).Perm
      ((subtree fs dir).flatMap fun ns => leaves fs false (dir.below ns) (below p ns)) := by
  fun_induction subtree fs dir generalizing p with
  | case2 dir hdir =>
    rw [leaves_of_not_isDirectory hdir]
    exact .refl _
  | case1 dir hdir ih =>
    rw [List.flatMap_cons, List.flatMap_assoc]
    have hhere : leaves fs false (dir.below []) (below p []) =
        (entriesIn fs dir).flatMap fun n =>
          if fs.isDirectory (dir.child n.text) then [] else [⟨p, dir.child n.text, n⟩] := by
      rw [leaves]
      simp
    rw [hhere, leaves]
    -- entry by entry: a leaf stays where it is, a directory has the leaves that are below it
    refine List.Perm.trans (.flatMap_left _ fun n _ => ?_) (List.flatMap_append_perm ..).symm
    rw [List.flatMap_map]
    by_cases hn : fs.isDirectory (dir.child n.text) = true
    · simp only [dif_pos hn, if_pos hn, List.nil_append]
      exact ih n (member p n.text)
    · have hnone : subtree fs (dir.child n.text) = [] := by rw [subtree, dif_neg hn]
      simp only [dif_neg hn, if_neg hn, hnone, List.flatMap_nil, List.append_nil]
      exact .refl _

/-! ### The packages of a forest -/

variable {d : Directories} {location : Location}

/-- The names that lead from a package to itself and to all directories below it, under any root
of a location. -/
def waysDown (d : Directories) (fs : FileSystem) (location : Location) (p : String) :
    List (List FileName) :=
  ([] :: (d.rootsOf location).flatMap fun root => subtree fs (root.join (toPath p))).dedup

/-- A package and its sub-packages, each of them once. -/
def packages (d : Directories) (fs : FileSystem) (location : Location) (p : String) :
    List String :=
  (d.waysDown fs location p).map (below p)

/-- A package has a sub-package: under some root a directory at some depth below its own. -/
def HasSubPackage (d : Directories) (fs : FileSystem) (location : Location) (p q : String) : Prop :=
  ∃ root ∈ d.rootsOf location, ∃ ns, ns ≠ [] ∧
    fs.isDirectory ((root.join (toPath p)).below ns) = true ∧ q = below p ns

/-- Below a package is a readable forest of packages: under every root, what is below the package's
directory is below something that can be listed, and no directory there has a dot in its name. -/
structure ForestBelow (d : Directories) (fs : FileSystem) (location : Location) (p : String) :
    Prop where
  readable : ∀ root ∈ d.rootsOf location, ∀ ns,
    fs.isDirectory ((root.join (toPath p)).below ns) = true →
      fs.isDirectory (root.join (toPath p)) = true
  dotless : ∀ root ∈ d.rootsOf location, ∀ ns,
    fs.isDirectory ((root.join (toPath p)).below ns) = true → Dotless ns

/-- Only the default package under the empty root has directories below it that it does not lead
to: everything else is readable. -/
theorem ForestBelow.of_nonempty (hroots : p ≠ "" ∨ ∀ root ∈ d.rootsOf location, root.text ≠ "")
    (hdot : ∀ root ∈ d.rootsOf location, ∀ ns,
      fs.isDirectory ((root.join (toPath p)).below ns) = true → Dotless ns) :
    d.ForestBelow fs location p :=
  ⟨fun root hroot _ hdir => isDirectory_of_below
    (Path.join_nonempty (hroots.symm.imp (· root hroot) toPath_nonempty)) hdir, hdot⟩

/-- **The ways down of a forest:** the one that stays, and those that lead to a directory under some
root. -/
theorem mem_waysDown_iff (hforest : d.ForestBelow fs location p) :
    ns ∈ d.waysDown fs location p ↔
      ns = [] ∨ ∃ root ∈ d.rootsOf location,
        fs.isDirectory ((root.join (toPath p)).below ns) = true := by
  simp only [waysDown, List.mem_dedup, List.mem_cons, List.mem_flatMap, mem_subtree_iff]
  refine or_congr_right (exists_congr fun root => and_congr_right fun hroot => ?_)
  exact and_iff_right_of_imp (hforest.readable root hroot ns)

/-- There is no dot on any way down of a forest. -/
theorem dotless_of_mem_waysDown (hforest : d.ForestBelow fs location p)
    (h : ns ∈ d.waysDown fs location p) : Dotless ns := by
  rcases (mem_waysDown_iff hforest).1 h with rfl | ⟨root, hroot, hdir⟩
  · exact List.forall_mem_nil _
  · exact hforest.dotless root hroot ns hdir

/-- **The packages of a forest** are the package itself and its sub-packages. -/
theorem mem_packages_iff (hforest : d.ForestBelow fs location p) {q : String} :
    q ∈ d.packages fs location p ↔ q = p ∨ d.HasSubPackage fs location p q := by
  simp only [packages, List.mem_map, mem_waysDown_iff hforest]
  constructor
  · rintro ⟨ns, hns, rfl⟩
    by_cases hnil : ns = []
    · exact .inl (by rw [hnil]; rfl)
    · obtain ⟨root, hroot, hdir⟩ := hns.resolve_left hnil
      exact .inr ⟨root, hroot, ns, hnil, hdir, rfl⟩
  · rintro (rfl | ⟨root, hroot, ns, -, hdir, rfl⟩)
    · exact ⟨[], .inl rfl, rfl⟩
    · exact ⟨ns, .inr ⟨root, hroot, hdir⟩, rfl⟩

/-- Each package of a forest is counted once, however many roots it is under. -/
theorem nodup_packages (hp : p = "" ∨ IsPackage p) (hforest : d.ForestBelow fs location p) :
    (d.packages fs location p).Nodup :=
  List.Nodup.map_on (fun _ hns _ hns' => below_inj hp (dotless_of_mem_waysDown hforest hns)
    (dotless_of_mem_waysDown hforest hns')) (List.nodup_dedup _)

/-- The leaves of a sub-package under all roots, by the way down to it. -/
theorem leavesOf_below (hp : p = "" ∨ IsPackage p) (hns : Dotless ns) :
    d.leavesOf fs location (below p ns) false =
      (d.rootsOf location).flatMap fun root =>
        leaves fs false ((root.join (toPath p)).below ns) (below p ns) := by
  rw [leavesOf]
  refine List.flatMap_congr fun root _ => ?_
  rw [join_toPath_below root hp hns]

/-- **The leaves of a package with its sub-packages** are those of each of them alone, under all
roots. -/
theorem leavesOf_perm (hp : p = "" ∨ IsPackage p) (hforest : d.ForestBelow fs location p) :
    (d.leavesOf fs location p true).Perm
      ((d.packages fs location p).flatMap fun q => d.leavesOf fs location q false) := by
  have hroots : (d.leavesOf fs location p true).Perm
      ((d.rootsOf location).flatMap fun root => (d.waysDown fs location p).flatMap fun ns =>
        leaves fs false ((root.join (toPath p)).below ns) (below p ns)) := by
    -- the ways down that are another root's lead to no directory under this one
    refine .flatMap_left _ fun root hroot => (leaves_perm ..).trans ?_
    refine flatMap_perm_of_subset (nodup_subtree ..) (List.nodup_dedup _) (fun ns hns => ?_)
      fun ns _ hns => ?_
    · exact (mem_waysDown_iff hforest).2 (.inr ⟨root, hroot, (mem_subtree_iff.1 hns).2⟩)
    · refine leaves_of_not_isDirectory fun hdir => hns (mem_subtree_iff.2 ⟨?_, hdir⟩)
      exact hforest.readable root hroot ns hdir
  have hways : ((d.packages fs location p).flatMap fun q => d.leavesOf fs location q false) =
      (d.waysDown fs location p).flatMap fun ns => (d.rootsOf location).flatMap fun root =>
        leaves fs false ((root.join (toPath p)).below ns) (below p ns) := by
    rw [packages, List.flatMap_map]
    exact List.flatMap_congr fun ns hns => leavesOf_below hp (dotless_of_mem_waysDown hforest hns)
  rw [hways]
  exact hroots.trans (flatMap_flatMap_perm ..)

/-- **A listing with sub-packages is the union of the listings without:** for the package and each
of its sub-packages once, with the same path, kind and name for each file. -/
theorem list_recurse (d : Directories) (fs : FileSystem) (location : Location)
    (hp : p = "" ∨ IsPackage p) (hforest : d.ForestBelow fs location p) :
    ∃ qs : List String, qs.Nodup ∧ (∀ q, q ∈ qs ↔ q = p ∨ d.HasSubPackage fs location p q) ∧
      ∀ kinds, ∃ deep flat, d.list fs location p kinds true = .ok deep ∧
        gather (fun q => d.list fs location q kinds false) qs = .ok flat ∧ deep.Perm flat := by
  refine ⟨d.packages fs location p, nodup_packages hp hforest, fun q => mem_packages_iff hforest,
    fun kinds => ⟨_, _, list_eq .., gather_eq_flatMap fun q _ => list_eq .., ?_⟩⟩
  rw [← List.filterMap_flatMap]
  exact (leavesOf_perm hp hforest).filterMap _

/-! ### Two roots with directories in common -/

/-- No entry is a link, and no directory has a dot in its name. -/
def isUndotted (fs : FileSystem) : Bool :=
  fs.entries.entries.all fun e =>
    match e.2 with
    | .directory => e.1.all fun n => '.' ∉ n.text.toList
    | .link _ => false
    | .file _ _ => true

/-- What is at an address other than the root stands in the table. -/
theorem mem_entries_of_present {a : Address} {e : Entry} (ha : a ≠ [])
    (h : fs.entry? a = some e) : (a, e) ∈ fs.entries.entries := by
  rwa [FileSystem.entry?, if_neg ha, Table.find?_eq_some_iff] at h

/-- A file system whose table has no link has none. -/
theorem hasNoLinks_of_isUndotted (h : isUndotted fs = true) : fs.HasNoLinks := by
  intro a target hlink
  by_cases ha : a = []
  · rw [FileSystem.entry?, if_pos ha] at hlink
    cases hlink
  · have hentry := List.all_eq_true.1 h _ (mem_entries_of_present ha hlink)
    cases hentry

/-- **What the entries of a file system are called can be seen from its table.** -/
theorem dotless_of_isUndotted (h : isUndotted fs = true) (hdir : dir.text ≠ "")
    (hbelow : fs.isDirectory (dir.below ns) = true) : Dotless ns := by
  induction ns using List.reverseRecOn with
  | nil => exact List.forall_mem_nil _
  | append_singleton ns n ih =>
    have hparent : fs.isDirectory (dir.below ns) = true := by
      rw [Path.below_append] at hbelow
      exact isDirectory_of_below (Path.below_nonempty hdir ns) hbelow
    rw [Path.below_concat] at hbelow
    obtain ⟨b, hb, hentry⟩ := FileSystem.isDirectory_iff_entry.1 hbelow
    obtain ⟨a, ha, -⟩ := FileSystem.isDirectory_iff_entry.1 hparent
    have hcomponents : (Path.mk n.text).components = [n].map .name := Path.components_fileName n
    obtain rfl := FileSystem.eq_of_resolve_child (hasNoLinks_of_isUndotted h) hcomponents ha hb
    have hnames := List.all_eq_true.1 h _ (mem_entries_of_present (by simp) hentry)
    simp only [List.all_append, List.all_cons, Bool.and_eq_true, decide_eq_true_eq] at hnames
    intro m hm
    rcases List.mem_append.1 hm with hm | hm
    · exact ih hparent m hm
    · rw [List.mem_singleton.1 hm]
      exact hnames.2.1

/-- The names in a directory, put in order one after the other. -/
theorem inOrder_eq_insertionSort (names : List FileName) :
    inOrder names = names.insertionSort fun a b => a.text ≤ b.text := by
  have : Std.Total fun a b : FileName => a.text ≤ b.text := ⟨fun _ _ => String.le_total _ _⟩
  have : IsTrans FileName fun a b => a.text ≤ b.text := ⟨fun _ _ _ => String.le_trans⟩
  have : Std.Antisymm fun a b : FileName => a.text ≤ b.text :=
    ⟨fun _ _ h h' => fileName_ext (String.le_antisymm h h')⟩
  exact List.mergeSort_eq_insertionSort ..

/-- The leaves of a directory that are at most so deep. -/
def leavesWithin (fs : FileSystem) (recurse : Bool) : (depth : Nat) → Path → String → List Leaf
  | 0, _, _ => []
  | depth + 1, dir, package =>
    (((fs.readDirectory dir).toOption.getD []).insertionSort fun a b => a.text ≤ b.text).flatMap
      fun n =>
        if fs.isDirectory (dir.child n.text) then
          if recurse then leavesWithin fs recurse depth (dir.child n.text) (member package n.text)
          else []
        else [⟨package, dir.child n.text, n⟩]

/-- Paths are short, so all leaves of a directory are found within a fixed depth. -/
theorem leaves_eq_leavesWithin (fs : FileSystem) (recurse : Bool) {depth : Nat} {dir : Path}
    (h : FileSystem.maxPathBytes ≤ dir.text.utf8ByteSize + depth) (package : String) :
    leaves fs recurse dir package = leavesWithin fs recurse depth dir package := by
  induction depth generalizing dir package with
  | zero =>
    refine leaves_of_not_isDirectory fun hdir => ?_
    have hlt := FileSystem.bytes_lt_of_isDirectory hdir
    omega
  | succ depth ih =>
    rw [leaves, leavesWithin, entriesIn, inOrder_eq_insertionSort]
    refine List.flatMap_congr fun n _ => ?_
    have hlt := bytes_lt_child dir n
    rw [ih (by omega), dite_eq_ite]

/-- **A listing can be computed** by going down to a fixed depth. -/
theorem list_eq_leavesWithin (d : Directories) (fs : FileSystem) (location : Location)
    (package : String) (kinds : List Kind) (recurse : Bool) :
    d.list fs location package kinds recurse =
      .ok (((d.rootsOf location).flatMap fun root =>
        leavesWithin fs recurse FileSystem.maxPathBytes (root.join (toPath package)) package).filterMap
          (Leaf.file? kinds)) := by
  rw [list_eq, leavesOf]
  simp only [leaves_eq_leavesWithin fs recurse (Nat.le_add_left FileSystem.maxPathBytes _)]

/-- A package with a sub-package under two roots; under one of them a source file is called like
the sub-package. -/
def overlapping : FileSystem :=
  (((FileSystem.empty.write ⟨"one/lib/App.rs"⟩ [1]).write ⟨"one/lib/App/Deep.rs"⟩ [2]).write
    ⟨"two/lib/App/Other.rs"⟩ [3]).write ⟨"two/lib/App/in/Leaf.html"⟩ [4]

/-- The two roots. -/
def overBoth : Directories :=
  (none.withRoot .sourcePath ⟨"one"⟩).withRoot .sourcePath ⟨"two"⟩

/-- The sub-package that is under both roots is listed once for both, and so is the one below.  With
its sub-packages the package has four files, root by root; without them it has one, and the others
are those of the two sub-packages. -/
theorem list_recurse_overlapping :
    overBoth.ForestBelow overlapping .sourcePath "lib" ∧
      (∃ qs : List String, qs.Nodup ∧ "lib.App" ∈ qs ∧ "lib.App.in" ∈ qs ∧
        ∀ kinds, ∃ deep flat, overBoth.list overlapping .sourcePath "lib" kinds true = .ok deep ∧
          gather (fun q => overBoth.list overlapping .sourcePath q kinds false) qs = .ok flat ∧
          deep.Perm flat) ∧
      overBoth.list overlapping .sourcePath "lib" [.source, .html] true =
        .ok [.standard ⟨⟨"one/lib/App/Deep.rs"⟩, .source, "lib.App.Deep"⟩,
          .standard ⟨⟨"one/lib/App.rs"⟩, .source, "lib.App"⟩,
          .standard ⟨⟨"two/lib/App/Other.rs"⟩, .source, "lib.App.Other"⟩,
          .standard ⟨⟨"two/lib/App/in/Leaf.html"⟩, .html, "lib.App.in.Leaf"⟩] ∧
      overBoth.list overlapping .sourcePath "lib" [.source, .html] false =
        .ok [.standard ⟨⟨"one/lib/App.rs"⟩, .source, "lib.App"⟩] ∧
      overBoth.list overlapping .sourcePath "lib.App" [.source, .html] false =
        .ok [.standard ⟨⟨"one/lib/App/Deep.rs"⟩, .source, "lib.App.Deep"⟩,
          .standard ⟨⟨"two/lib/App/Other.rs"⟩, .source, "lib.App.Other"⟩] ∧
      overBoth.list overlapping .sourcePath "lib.App.in" [.source, .html] false =
        .ok [.standard ⟨⟨"two/lib/App/in/Leaf.html"⟩, .html, "lib.App.in.Leaf"⟩] := by
  have hlib : IsPackage "lib" := .segment ⟨by decide, by decide, by decide⟩
  have hforest : overBoth.ForestBelow overlapping .sourcePath "lib" :=
    .of_nonempty (.inl (by decide)) fun _ _ _ hdir => dotless_of_isUndotted (by decide +kernel)
      (Path.join_nonempty (.inr (by decide +kernel))) hdir
  obtain ⟨qs, hnodup, hmem, hlist⟩ :=
    list_recurse overBoth overlapping .sourcePath (.inr hlib) hforest
  let app : FileName := ⟨"App", by decide, by decide, by decide, by decide⟩
  let deeper : FileName := ⟨"in", by decide, by decide, by decide, by decide⟩
  simp only [list_eq_leavesWithin _ _ _ _ [.source, .html], Except.ok.injEq]
  refine ⟨hforest, ⟨qs, hnodup, (hmem _).2 (.inr ?_), (hmem _).2 (.inr ?_), hlist⟩,
    by decide +kernel, by decide +kernel, by decide +kernel, by decide +kernel⟩
  · exact ⟨⟨"two"⟩, by decide +kernel, [app], by simp, by decide +kernel, by decide +kernel⟩
  · exact ⟨⟨"two"⟩, by decide +kernel, [app, deeper], by simp, by decide +kernel, by decide +kernel⟩

end Directories
end LiveBuild
