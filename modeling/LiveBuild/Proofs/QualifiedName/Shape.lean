/-
# Well-formed names

A well-formed name is a package and a segment, where a package is one segment or more
with dots between them, and a segment is a text without dots and slashes that is not empty
(`IsPackage`, `IsSegment`).

| name | path |
| --- | --- |
| `p` | a relative path that neither begins nor ends with a slash |
| `p.t` | the path of `p`, a slash, and `t` |

The package of `p.t` is `p` (`package_member`), and the path can be read back
(`ofPath_toPath`).
-/

import LiveBuild.Proofs.Text.Affix
import LiveBuild.QualifiedName

namespace LiveBuild
namespace QualifiedName

/-- What stands between two dots of a name. -/
structure IsSegment (t : String) : Prop where
  nonempty : t ≠ ""
  noDot : '.' ∉ t.toList
  noSlash : '/' ∉ t.toList

/-- A package that is not the default one: segments with dots between them. -/
inductive IsPackage : String → Prop
  | segment {t : String} (ht : IsSegment t) : IsPackage t
  | inside {p t : String} (hp : IsPackage p) (ht : IsSegment t) : IsPackage (p ++ "." ++ t)

variable {p t : String}

/-- A segment has a first character. -/
theorem IsSegment.toList_ne_nil (ht : IsSegment t) : t.toList ≠ [] := by
  intro h
  exact ht.nonempty (String.toList_eq_nil_iff.1 h)

/-- A package with a name is not the default one. -/
theorem IsPackage.nonempty (hp : IsPackage p) : p ≠ "" := by
  cases hp with
  | segment ht => exact ht.nonempty
  | inside hp ht =>
    intro h
    have hlist := congrArg String.toList h
    simp [String.toList_append] at hlist

/-- There is no slash in a package. -/
theorem IsPackage.noSlash (hp : IsPackage p) : '/' ∉ p.toList := by
  induction hp with
  | segment ht => exact ht.noSlash
  | inside hp ht ih => simp [String.toList_append, ih, ht.noSlash]

/-- A package begins with a character of a segment. -/
theorem IsPackage.head?_eq (hp : IsPackage p) : ∃ c, p.toList.head? = some c ∧ c ≠ '.' ∧ c ≠ '/' := by
  induction hp with
  | segment ht =>
    obtain ⟨c, cs, hc⟩ := List.exists_cons_of_ne_nil ht.toList_ne_nil
    refine ⟨c, by rw [hc, List.head?_cons], ?_, ?_⟩
    · rintro rfl
      exact ht.noDot (by simp [hc])
    · rintro rfl
      exact ht.noSlash (by simp [hc])
  | inside hp ht ih =>
    obtain ⟨c, hc, hne⟩ := ih
    exact ⟨c, by simp [String.toList_append, List.head?_append, hc], hne⟩

/-- A package ends with a character of a segment. -/
theorem IsPackage.getLast?_eq (hp : IsPackage p) :
    ∃ c, p.toList.getLast? = some c ∧ c ≠ '.' ∧ c ≠ '/' := by
  have hlast : ∀ {t : String}, IsSegment t → ∃ c, t.toList.getLast? = some c ∧ c ≠ '.' ∧ c ≠ '/' := by
    intro t ht
    have hmem := List.getLast_mem ht.toList_ne_nil
    exact ⟨_, List.getLast?_eq_some_getLast ht.toList_ne_nil, fun h => ht.noDot (h ▸ hmem),
      fun h => ht.noSlash (h ▸ hmem)⟩
  cases hp with
  | segment ht => exact hlast ht
  | inside hp ht =>
    obtain ⟨c, hc, hne⟩ := hlast ht
    exact ⟨c, by rw [String.toList_append, List.getLast?_append, hc]; rfl, hne⟩

/-- A member of a package with a name stands behind a dot. -/
theorem member_eq (hp : IsPackage p) (t : String) : member p t = p ++ "." ++ t := by
  have hempty : p.isEmpty = false := by
    rw [Bool.eq_false_iff, ne_eq, String.isEmpty_iff]
    exact hp.nonempty
  rw [member, hempty, if_neg Bool.false_ne_true]

/-- Different members of a package have different names. -/
theorem member_inj {t t' : String} : member p t = member p t' ↔ t = t' := by
  unfold member
  split
  · exact Iff.rfl
  · exact String.append_right_inj _

/-- What is behind the last dot is skipped. -/
theorem dropWhile_reverse_append (h : '.' ∉ t.toList) (rest : List Char) :
    (t.toList.reverse ++ rest).dropWhile (· ≠ '.') = rest.dropWhile (· ≠ '.') := by
  refine List.dropWhile_append_of_pos fun c hc => ?_
  rw [decide_eq_true_eq]
  rintro rfl
  exact h (List.mem_reverse.1 hc)

/-- A name without a dot is in the default package. -/
theorem package_of_noDot (h : '.' ∉ t.toList) : package t = "" := by
  have hskip := dropWhile_reverse_append h []
  rw [List.append_nil] at hskip
  rw [package, hskip]
  rfl

/-- **The package of a member is the package.** -/
theorem package_member (hp : IsPackage p) (ht : IsSegment t) : package (member p t) = p := by
  have hlist : (member p t).toList.reverse = t.toList.reverse ++ '.' :: p.toList.reverse := by
    rw [member_eq hp]
    simp [String.toList_append]
  have hskip : ('.' :: p.toList.reverse).dropWhile (· ≠ '.') = '.' :: p.toList.reverse := by simp
  rw [package, hlist, dropWhile_reverse_append ht.noDot, hskip, List.drop_one, List.tail_cons,
    List.reverse_reverse, String.ofList_toList]

/-- **The path of a member** is the package's path, a slash and the segment. -/
theorem toPath_member (hp : IsPackage p) (ht : IsSegment t) :
    toPath (member p t) = toPath p ++ "/" ++ t := by
  have hdot : Text.exchange '.' '/' "." = "/" := rfl
  rw [member_eq hp, toPath, Text.exchange_append, Text.exchange_append, hdot,
    Text.exchange_of_notMem ht.noDot, toPath]

/-- **A path can be read back as a name.** -/
theorem ofPath_toPath (hp : IsPackage p) {r : String} (hr : '/' ∉ r.toList) :
    ofPath (toPath p ++ "/" ++ r) = member p r := by
  have hslash : Text.exchange '/' '.' "/" = "." := rfl
  rw [member_eq hp, ofPath, Text.exchange_append, Text.exchange_append, hslash,
    Text.exchange_of_notMem hr, toPath, Text.exchange_exchange hp.noSlash]

/-- What has no slash stays as it is behind the dots. -/
theorem ofPath_append {parent stem : String} (h : '/' ∉ stem.toList) :
    ofPath (parent ++ stem) = ofPath parent ++ stem := by
  rw [ofPath, ofPath, Text.exchange_append, Text.exchange_of_notMem h]

/-- Only the default package has the empty path. -/
theorem toPath_nonempty (h : p ≠ "") : toPath p ≠ "" := by
  intro hempty
  have hlist := congrArg String.toList hempty
  rw [toPath, Text.exchange, String.toList_ofList, String.toList_empty, List.map_eq_nil_iff] at hlist
  exact h (String.toList_eq_nil_iff.1 hlist)

/-- The path of a package does not begin with a slash. -/
theorem head?_toPath (hp : IsPackage p) : ∃ c, (toPath p).toList.head? = some c ∧ c ≠ '/' := by
  obtain ⟨c, hc, hdot, hslash⟩ := hp.head?_eq
  exact ⟨c, by simp [toPath, Text.exchange, hc, hdot], hslash⟩

/-- A package's path ends with a character of a segment. -/
theorem getLast?_toPath (hp : IsPackage p) :
    ∃ c, (toPath p).toList.getLast? = some c ∧ c ≠ '/' := by
  obtain ⟨c, hc, hdot, hslash⟩ := hp.getLast?_eq
  exact ⟨c, by simp [toPath, Text.exchange, hc, hdot], hslash⟩

/-- A package's path does not end with a slash. -/
theorem getLast?_toPath_ne (hp : IsPackage p) : (toPath p).toList.getLast? ≠ some '/' := by
  obtain ⟨c, hc, hslash⟩ := getLast?_toPath hp
  rw [hc]
  exact fun h => hslash (Option.some.inj h)

end QualifiedName
end LiveBuild
