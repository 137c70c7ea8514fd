import Egress.Policy.Rules
import Mathlib.Data.List.Infix

/-!
What wildcard patterns cover. A run of a pattern keeps the endings of the text that may still have
to be covered, longest first, so that the first of them has all the others in it; that is why a star
may go on with the endings of the first. Patterns for hosts are folded, and so are the hosts, which
comes to comparing letters without their case. Rules rely on nothing else, so they may be used with
any matcher that covers what fits a pattern.
-/

namespace Egress.Text.Wildcard

/-- The pattern covers the whole text, where `same` says which characters stand for which. -/
inductive Fits (same : Char → Char → Prop) : List Char → List Char → Prop
  | nil : Fits same [] []
  | star {pattern rest : List Char} (run : List Char) (h : Fits same pattern rest) :
      Fits same ('*' :: pattern) (run ++ rest)
  | one {pattern rest : List Char} (c : Char) (h : Fits same pattern rest) :
      Fits same ('?' :: pattern) (c :: rest)
  | char {p c : Char} {pattern rest : List Char} (hstar : p ≠ '*') (hone : p ≠ '?')
      (hsame : same p c) (h : Fits same pattern rest) : Fits same (p :: pattern) (c :: rest)

section Fits

variable {same : Char → Char → Prop} {p : Char} {pattern text : List Char}

theorem fits_nil_iff : Fits same [] text ↔ text = [] := by
  constructor
  · intro h
    cases h
    rfl
  · rintro rfl
    exact .nil

theorem fits_star_iff :
    Fits same ('*' :: pattern) text ↔ ∃ rest, rest <:+ text ∧ Fits same pattern rest := by
  constructor
  · intro h
    cases h with
    | star run h => exact ⟨_, List.suffix_append run _, h⟩
    | char hstar => exact absurd rfl hstar
  · rintro ⟨rest, ⟨run, rfl⟩, h⟩
    exact .star run h

theorem fits_one_iff :
    Fits same ('?' :: pattern) text ↔ ∃ c rest, text = c :: rest ∧ Fits same pattern rest := by
  constructor
  · intro h
    cases h with
    | one c h => exact ⟨c, _, rfl, h⟩
    | char hstar hone => exact absurd rfl hone
  · rintro ⟨c, rest, rfl, h⟩
    exact .one c h

theorem fits_char_iff (hstar : p ≠ '*') (hone : p ≠ '?') : Fits same (p :: pattern) text ↔
    ∃ c rest, text = c :: rest ∧ same p c ∧ Fits same pattern rest := by
  constructor
  · intro h
    cases h with
    | star => exact absurd rfl hstar
    | one => exact absurd rfl hone
    | char _ _ hsame h => exact ⟨_, _, rfl, hsame, h⟩
  · rintro ⟨c, rest, rfl, hsame, h⟩
    exact .char hstar hone hsame h

/-- Folding both sides comes to comparing without case: nothing but a wildcard folds to one. -/
theorem fits_foldCase_iff : Fits Eq (foldCase pattern) (foldCase text) ↔
    Fits (fun p c => p.toLower = c.toLower) pattern text := by
  induction pattern generalizing text with
  | nil => simp only [foldCase, List.map_nil, fits_nil_iff, List.map_eq_nil_iff]
  | cons p pattern ih =>
      have hcons : foldCase (p :: pattern) = p.toLower :: foldCase pattern := rfl
      rw [hcons]
      by_cases hstar : p = '*'
      · subst hstar
        change Fits Eq ('*' :: foldCase pattern) _ ↔ _
        rw [fits_star_iff, fits_star_iff]
        constructor
        · rintro ⟨_, hrest, h⟩
          obtain ⟨rest, hending, rfl⟩ := List.suffix_map_iff.1 hrest
          exact ⟨rest, hending, ih.1 h⟩
        · rintro ⟨rest, hending, h⟩
          exact ⟨foldCase rest, hending.map Char.toLower, ih.2 h⟩
      have htail (P : Char → Prop) : (∃ c rest, foldCase text = c :: rest ∧ P c ∧
          Fits Eq (foldCase pattern) rest) ↔ ∃ c rest, text = c :: rest ∧ P c.toLower ∧
            Fits (fun p c => p.toLower = c.toLower) pattern rest := by
        cases text with
        | nil => simp [foldCase]
        | cons c rest => simp [foldCase, ← ih]
      by_cases hone : p = '?'
      · subst hone
        change Fits Eq ('?' :: foldCase pattern) _ ↔ _
        rw [fits_one_iff, fits_one_iff]
        simpa only [true_and] using htail fun _ => True
      · have hstar' : p.toLower ≠ '*' := fun h => hstar ((toLower_eq_iff (by decide)).1 h)
        have hone' : p.toLower ≠ '?' := fun h => hone ((toLower_eq_iff (by decide)).1 h)
        rw [fits_char_iff hstar' hone', fits_char_iff hstar hone]
        exact htail (p.toLower = ·)

end Fits

/-- Each text is an ending of those before it. -/
def Nested (texts : List (List Char)) : Prop :=
  texts.Pairwise fun longer shorter => shorter <:+ longer

theorem mem_endings {rest text : List Char} : rest ∈ endings text ↔ rest <:+ text := by
  induction text with
  | nil => simp [endings]
  | cons c cs ih => rw [endings, List.mem_cons, ih, List.suffix_cons_iff]

theorem nested_endings (text : List Char) : Nested (endings text) := by
  induction text with
  | nil => exact List.pairwise_singleton _ _
  | cons c cs ih =>
      refine List.Pairwise.cons (fun rest h => ?_) ih
      exact (mem_endings.1 h).trans (List.suffix_cons c cs)

theorem after_eq_some {accepts : Char → Bool} {text rest : List Char} :
    after accepts text = some rest ↔ ∃ c, text = c :: rest ∧ accepts c = true := by
  cases text with
  | nil => simp [after]
  | cons c cs => grind [after]

theorem Nested.after {texts : List (List Char)} (h : Nested texts) (accepts : Char → Bool) :
    Nested (texts.filterMap (after accepts)) := by
  refine List.Pairwise.filterMap _ (fun longer shorter hending a ha b hb => ?_) h
  obtain ⟨c, rfl, -⟩ := after_eq_some.1 ha
  obtain ⟨d, rfl, -⟩ := after_eq_some.1 hb
  rcases List.suffix_cons_iff.1 hending with hsame | hlater
  · rw [(List.cons.inj hsame).2]
  · exact (List.suffix_cons d b).trans hlater

theorem exists_mem_after {accepts : Char → Bool} {texts : List (List Char)}
    {P : List Char → Prop} : (∃ rest ∈ texts.filterMap (after accepts), P rest) ↔
      ∃ text ∈ texts, ∃ c rest, text = c :: rest ∧ accepts c = true ∧ P rest := by
  simp only [List.mem_filterMap, after_eq_some]
  grind

theorem run_iff {pattern : List Char} {texts : List (List Char)} (h : Nested texts) :
    run pattern texts = true ↔ ∃ text ∈ texts, Fits Eq pattern text := by
  fun_induction run pattern texts with
  | case1 texts => simp [fits_nil_iff, List.any_eq_true, List.isEmpty_iff]
  | case2 pattern => simp
  | case3 pattern longest others ih =>
      rw [ih (nested_endings longest)]
      simp only [fits_star_iff, mem_endings]
      constructor
      · rintro ⟨rest, hending, hfits⟩
        exact ⟨longest, List.mem_cons_self, rest, hending, hfits⟩
      · rintro ⟨text, htext, rest, hending, hfits⟩
        refine ⟨rest, hending.trans ?_, hfits⟩
        rcases List.mem_cons.1 htext with rfl | hlater
        · exact List.suffix_rfl
        · exact (List.pairwise_cons.1 h).1 text hlater
  | case4 pattern texts ih =>
      rw [ih (h.after _), exists_mem_after]
      simp only [fits_one_iff, true_and]
  | case5 p pattern texts hstar hone ih =>
      rw [ih (h.after _), exists_mem_after]
      simp only [fits_char_iff hstar hone, beq_iff_eq, @eq_comm Char p]

theorem covers_iff (w : Wildcard) (s : String) :
    w.covers s = true ↔ Fits Eq w.pattern s.toList := by
  rw [covers, run_iff (List.pairwise_singleton _ _)]
  simp only [List.mem_singleton, exists_eq_left]

end Egress.Text.Wildcard

namespace Egress.Text

/-- Patterns cover what fits them, each character that is no wildcard standing for itself. -/
def Covering.Exact [Covering] : Prop :=
  ∀ (w : Wildcard) (s : String), covers w s = true ↔ Wildcard.Fits Eq w.pattern s.toList

theorem Wildcard.exact_covering : Covering.Exact := covers_iff

end Egress.Text

namespace Egress.HostMatcher

/-- A host is covered by a pattern whatever the case of their letters. -/
theorem covers_ofPattern_iff [Text.Covering] (hexact : Text.Covering.Exact)
    (pattern host : String) : (ofPattern pattern).covers host = true ↔
      Text.Wildcard.Fits (fun p c => p.toLower = c.toLower) pattern.toList host.toList := by
  rw [ofPattern, covers, hexact, Text.Wildcard.ofText, Text.toList_lower, Text.toList_lower,
    Text.Wildcard.fits_foldCase_iff]

end Egress.HostMatcher
