/-!
Text cut at a separator and joined again. `pieces_join` and `join_pieces` say that cutting and
joining undo each other as long as no piece holds the separator, `pieces_isSuffix_iff` when the last
pieces of a text are those of another.
-/

namespace Egress.Text

/-- The text before the first separator, and the pieces after it. -/
def cut (sep : Char) : List Char → List Char × List (List Char)
  | [] => ([], [])
  | c :: cs =>
      let (first, others) := cut sep cs
      if c = sep then ([], first :: others) else (c :: first, others)

/-- All pieces between separators; a text without a separator is one piece, even if empty. -/
def pieces (sep : Char) (cs : List Char) : List (List Char) :=
  (cut sep cs).1 :: (cut sep cs).2

def join (sep : Char) : List (List Char) → List Char
  | [] => []
  | [p] => p
  | p :: q :: rest => p ++ sep :: join sep (q :: rest)

@[simp] theorem pieces_nil (sep : Char) : pieces sep [] = [[]] := rfl

theorem pieces_ne_nil (sep : Char) (cs : List Char) : pieces sep cs ≠ [] := List.cons_ne_nil _ _

@[simp] theorem pieces_cons_sep (sep : Char) (cs : List Char) :
    pieces sep (sep :: cs) = [] :: pieces sep cs := by
  simp [pieces, cut]

theorem cut_cons_of_ne {sep c : Char} (h : c ≠ sep) (cs : List Char) :
    cut sep (c :: cs) = (c :: (cut sep cs).1, (cut sep cs).2) := by
  simp [cut, h]

theorem pieces_cons_of_ne {sep c : Char} (h : c ≠ sep) (cs : List Char) :
    pieces sep (c :: cs) = (pieces sep cs).modifyHead (c :: ·) := by
  simp [pieces, cut_cons_of_ne h]

/-- Characters may be replaced piece by piece if no other is taken for the separator. -/
theorem pieces_map {sep : Char} {f : Char → Char} (h : ∀ c, f c = sep ↔ c = sep) (cs : List Char) :
    pieces sep (cs.map f) = (pieces sep cs).map (List.map f) := by
  induction cs with
  | nil => rfl
  | cons c cs ih =>
      by_cases hc : c = sep
      · subst hc
        rw [List.map_cons, (h c).2 rfl, pieces_cons_sep, pieces_cons_sep, ih]
        rfl
      · rw [List.map_cons, pieces_cons_of_ne (mt (h c).1 hc), pieces_cons_of_ne hc, ih]
        rfl

/-- A separator between two texts keeps their pieces apart. -/
theorem pieces_append (sep : Char) (xs ys : List Char) :
    pieces sep (xs ++ sep :: ys) = pieces sep xs ++ pieces sep ys := by
  induction xs with
  | nil => rw [List.nil_append, pieces_cons_sep, pieces_nil, List.singleton_append]
  | cons c xs ih =>
      by_cases hc : c = sep
      · subst hc
        rw [List.cons_append, pieces_cons_sep, pieces_cons_sep, ih, List.cons_append]
      · rw [List.cons_append, pieces_cons_of_ne hc, pieces_cons_of_ne hc, ih]
        rfl

theorem pieces_of_not_mem {sep : Char} {p : List Char} (h : sep ∉ p) : pieces sep p = [p] := by
  induction p with
  | nil => rfl
  | cons c p ih =>
      simp only [List.mem_cons, not_or] at h
      rw [pieces_cons_of_ne (Ne.symm h.1), ih h.2]
      rfl

theorem pieces_append_sep {sep : Char} {p : List Char} (h : sep ∉ p) (cs : List Char) :
    pieces sep (p ++ sep :: cs) = p :: pieces sep cs := by
  rw [pieces_append, pieces_of_not_mem h, List.singleton_append]

theorem pieces_join {sep : Char} {ps : List (List Char)} (hne : ps ≠ [])
    (h : ∀ p ∈ ps, sep ∉ p) : pieces sep (join sep ps) = ps := by
  match ps, hne with
  | [p], _ => exact pieces_of_not_mem (h p (by simp))
  | p :: q :: rest, _ =>
      rw [join, pieces_append_sep (h p (by simp)),
        pieces_join (by simp) fun x hx => h x (List.mem_cons_of_mem _ hx)]

theorem not_mem_of_mem_pieces {sep : Char} {cs p : List Char} (h : p ∈ pieces sep cs) :
    sep ∉ p := by
  induction cs generalizing p with
  | nil => simp_all
  | cons c cs ih =>
      by_cases hc : c = sep
      · subst hc
        rw [pieces_cons_sep] at h
        rcases List.mem_cons.1 h with rfl | h
        · exact List.not_mem_nil
        · exact ih h
      · simp only [pieces, cut_cons_of_ne hc, List.mem_cons] at h
        rcases h with rfl | h
        · have := ih (p := (cut sep cs).1) (by simp [pieces])
          simp [Ne.symm hc, this]
        · exact ih (by simp [pieces, h])

theorem join_pieces (sep : Char) (cs : List Char) : join sep (pieces sep cs) = cs := by
  induction cs with
  | nil => rfl
  | cons c cs ih =>
      by_cases hc : c = sep
      · subst hc
        rw [pieces_cons_sep]
        simpa [pieces, join] using ih
      · simp only [pieces, cut_cons_of_ne hc] at ih ⊢
        cases hq : (cut sep cs).2 with
        | nil => simpa [hq, join] using ih
        | cons q qs => simpa [hq, join] using ih

theorem join_append {sep : Char} {front back : List (List Char)} (hfront : front ≠ [])
    (hback : back ≠ []) : join sep (front ++ back) = join sep front ++ sep :: join sep back := by
  induction front with
  | nil => exact absurd rfl hfront
  | cons p ps ih =>
      cases ps with
      | nil =>
          obtain ⟨q, rest, rfl⟩ := List.exists_cons_of_ne_nil hback
          rfl
      | cons q rest =>
          have hrest := ih (List.cons_ne_nil q rest)
          simp only [List.cons_append, join] at hrest ⊢
          rw [hrest, List.append_assoc, List.cons_append]

/-- The last pieces of a text are those of another one if it is this text or ends with it behind a
separator. -/
theorem pieces_isSuffix_iff {sep : Char} {cs ds : List Char} :
    pieces sep ds <:+ pieces sep cs ↔ cs = ds ∨ ∃ head, cs = head ++ sep :: ds := by
  constructor
  · rintro ⟨front, hfront⟩
    have hjoin : cs = join sep (front ++ pieces sep ds) := by rw [hfront, join_pieces]
    cases front with
    | nil =>
        rw [List.nil_append, join_pieces] at hjoin
        exact .inl hjoin
    | cons p ps =>
        rw [join_append (List.cons_ne_nil p ps) (pieces_ne_nil sep ds), join_pieces] at hjoin
        exact .inr ⟨_, hjoin⟩
  · rintro (rfl | ⟨head, rfl⟩)
    · exact List.suffix_rfl
    · rw [pieces_append]
      exact List.suffix_append _ _

theorem join_eq_intercalate (sep : Char) (ps : List (List Char)) :
    join sep ps = [sep].intercalate ps := by
  induction ps with
  | nil => rfl
  | cons p ps ih =>
      cases ps with
      | nil => rw [join, List.intercalate_singleton]
      | cons q rest =>
          rw [join, ih, List.intercalate_cons_cons, List.append_assoc, List.singleton_append]

end Egress.Text
