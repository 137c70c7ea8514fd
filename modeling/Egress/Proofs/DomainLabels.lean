import Egress.Policy.Rules
import Mathlib.Data.List.DropRight

/-!
Domains by their labels. A rule compares letters from the end of a host and looks at the one before
them. That is a comparison of labels: a host is in a domain exactly if its last labels are those of
the domain, so a name that only ends in the same letters is not.
-/

namespace Egress

theorem Text.pieces_eq_splitOn (sep : Char) (cs : List Char) : pieces sep cs = cs.splitOn sep := by
  have h := List.splitOn_intercalate sep (fun p => not_mem_of_mem_pieces) (pieces_ne_nil sep cs)
  rwa [← join_eq_intercalate, join_pieces, eq_comm] at h

namespace HostName

/-- A name without the dots at its end. -/
def undotted (name : List Char) : List Char := name.rdropWhile (· == '.')

/-- What stands between the dots of a name, in lower case and without the dots at its end. -/
def labels (name : List Char) : List (List Char) :=
  ((undotted name).map Char.toLower).splitOn '.'

/-- The domain has more than dots, and its labels are the last ones of the host. -/
def EndsWith (host domain : List Char) : Prop :=
  undotted domain ≠ [] ∧ labels domain <:+ labels host

theorem trimmed_eq (name : String) :
    trimmed name = (undotted name.toList).map Char.toLower := rfl

theorem labels_eq_pieces (name : String) : labels name.toList = Text.pieces '.' (trimmed name) :=
  (Text.pieces_eq_splitOn '.' _).symm

theorem beforeSuffix?_eq_some {suffix cs head : List Char} :
    beforeSuffix? suffix cs = some head ↔ cs = head ++ suffix := by
  rw [beforeSuffix?, Option.ite_none_right_eq_some, List.isSuffixOf_iff_suffix, Option.some.injEq]
  constructor
  · rintro ⟨hsuffix, rfl⟩
    exact (List.suffix_iff_eq_append.1 hsuffix).symm
  · rintro rfl
    refine ⟨List.suffix_append head suffix, ?_⟩
    rw [List.length_append, Nat.add_sub_cancel, List.take_left]

/-- A host is the domain, or has a dot and then the domain at its end. -/
theorem isInDomain_iff (host domain : String) : isInDomain host domain = true ↔
    trimmed domain ≠ [] ∧
      (trimmed host = trimmed domain ∨ ∃ head, trimmed host = head ++ '.' :: trimmed domain) := by
  have hbelow : ((beforeSuffix? (trimmed domain) (trimmed host)).any
      fun head => head.getLast? == some '.') = true ↔
      ∃ head, trimmed host = head ++ '.' :: trimmed domain := by
    simp only [Option.any_eq_true, beq_iff_eq, List.getLast?_eq_some_iff, beforeSuffix?_eq_some]
    constructor
    · rintro ⟨-, hhost, head, rfl⟩
      exact ⟨head, by rw [hhost, List.append_assoc, List.singleton_append]⟩
    · rintro ⟨head, hhost⟩
      refine ⟨head ++ ['.'], ?_, head, rfl⟩
      rw [hhost, List.append_assoc, List.singleton_append]
  simp only [isInDomain]
  split <;> rename_i hempty
  · rw [List.isEmpty_iff] at hempty
    simp [hempty]
  · rw [List.isEmpty_iff] at hempty
    rw [Bool.or_eq_true, beq_iff_eq, hbelow, and_iff_right hempty]

theorem isInDomain_iff_endsWith (host domain : String) :
    isInDomain host domain = true ↔ EndsWith host.toList domain.toList := by
  rw [isInDomain_iff, EndsWith, labels_eq_pieces, labels_eq_pieces, Text.pieces_isSuffix_iff,
    trimmed_eq domain, Ne, List.map_eq_nil_iff]

/-- Letters without their case have the same dots. -/
theorem undotted_foldCase (cs : List Char) :
    undotted (Text.foldCase cs) = Text.foldCase (undotted cs) := by
  have hdot : (fun c : Char => c.toLower == '.') = (· == '.') := by
    funext c
    rw [Bool.eq_iff_iff, beq_iff_eq, beq_iff_eq, Text.toLower_eq_dot]
  rw [undotted, undotted, Text.foldCase, Text.foldCase, List.rdropWhile, List.rdropWhile,
    ← List.map_reverse, List.dropWhile_map, List.map_reverse]
  simp only [Function.comp_def, hdot]

theorem labels_foldCase (cs : List Char) : labels (Text.foldCase cs) = labels cs := by
  have hfold : (undotted (Text.foldCase cs)).map Char.toLower =
      Text.foldCase (Text.foldCase (undotted cs)) := by rw [undotted_foldCase]; rfl
  rw [labels, hfold, Text.foldCase_foldCase]
  rfl

theorem endsWith_foldCase (host domain : List Char) :
    EndsWith host (Text.foldCase domain) ↔ EndsWith host domain := by
  rw [EndsWith, labels_foldCase, undotted_foldCase, Ne, Text.foldCase, List.map_eq_nil_iff]
  rfl

/-- A host is in a domain exactly if the labels of the domain are the last ones of the host and are
more than an empty one; neither case nor dots at the end make a difference. The domain of a rule is
taken without the dots at its start. -/
theorem isInDomain_by_labels [Text.Covering] (host domain : String) :
    (isInDomain host domain = true ↔ EndsWith host.toList domain.toList) ∧
    ((HostMatcher.ofDomain domain).covers host = true ↔
      EndsWith host.toList (domain.toList.dropWhile (· == '.'))) := by
  refine ⟨isInDomain_iff_endsWith host domain, ?_⟩
  have hcovers : (HostMatcher.ofDomain domain).covers host =
    isInDomain host (String.ofList (Text.foldCase (domain.toList.dropWhile (· == '.')))) := rfl
  rw [hcovers, isInDomain_iff_endsWith, String.toList_ofList, endsWith_foldCase]

example : isInDomain "WWW.Google.com." "google.com" = true := by decide
example : isInDomain "notgoogle.com" "google.com" = false := by decide

end HostName

end Egress
