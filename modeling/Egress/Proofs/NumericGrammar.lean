import Egress.Ip.NumericHost
import Mathlib.Data.List.Forall2
import Mathlib.Data.List.TakeWhile
import Mathlib.Data.Nat.Digits.Defs
import Mathlib.Tactic.Ring

/-!
Which hosts are numeric. A numeral is a string of digits with its positional value, a classic IPv4
host is one to four numerals between dots, and reading accepts exactly these. The same reading done
on four machine words, with every index, subtraction and shift checked, never meets a fault: an
octet is put between what stands above it and a last part that is small enough to stay below it.
-/

namespace Egress

namespace Text

/-- The digit of a value, letters in either case. -/
def DigitOf (base d : Nat) (c : Char) : Prop :=
  d < base ∧ (c = d.digitChar ∨ c = d.digitChar.toUpper)

/-- A string of digits, not empty, and the number it spells. -/
def Spells (base : Nat) (cs : List Char) (n : Nat) : Prop :=
  cs ≠ [] ∧ ∃ ds, List.Forall₂ (DigitOf base) ds cs ∧ Nat.ofDigits base ds.reverse = n

theorem eq_ofNat_add {c : Char} {first k : Nat} (hle : first ≤ c.toNat)
    (hk : c.toNat - first = k) : c = Char.ofNat (first + k) := by
  rw [← hk, Nat.add_sub_of_le hle, Char.ofNat_toNat]

theorem digitValue_eq_some {c : Char} {d : Nat} (hd : d < 16) :
    digitValue c = some d ↔ c = d.digitChar ∨ c = d.digitChar.toUpper := by
  have hnumber : (List.range 10).all
      (fun d => Char.ofNat (48 + d) == d.digitChar) = true := by decide
  have hletter : (List.range 6).all (fun k => Char.ofNat (97 + k) == (10 + k).digitChar &&
      Char.ofNat (65 + k) == (10 + k).digitChar.toUpper) = true := by decide
  have hvalue : (List.range 16).all (fun d => digitValue d.digitChar == some d &&
      digitValue d.digitChar.toUpper == some d) = true := by decide
  constructor
  · intro h
    unfold digitValue at h
    split at h
    · rename_i hrange
      have hle : 48 ≤ c.toNat := hrange.1
      have hc : c = Char.ofNat (48 + d) := eq_ofNat_add hle (Option.some.inj h)
      have hle' : c.toNat ≤ 57 := hrange.2
      have hd' : c.toNat - 48 = d := Option.some.inj h
      have hchar := List.all_eq_true.1 hnumber d (List.mem_range.2 (by omega))
      exact .inl (hc.trans (beq_iff_eq.1 hchar))
    · split at h
      · rename_i hrange
        have hle : 97 ≤ c.toNat := hrange.1
        have hd' : c.toNat - 97 + 10 = d := Option.some.inj h
        have hc : c = Char.ofNat (97 + (d - 10)) := eq_ofNat_add hle (by omega)
        have hchar := List.all_eq_true.1 hletter (d - 10) (List.mem_range.2 (by omega))
        rw [Bool.and_eq_true, beq_iff_eq, Nat.add_sub_of_le (by omega)] at hchar
        exact .inl (hc.trans hchar.1)
      · split at h
        · rename_i hrange
          have hle : 65 ≤ c.toNat := hrange.1
          have hd' : c.toNat - 65 + 10 = d := Option.some.inj h
          have hc : c = Char.ofNat (65 + (d - 10)) := eq_ofNat_add hle (by omega)
          have hchar := List.all_eq_true.1 hletter (d - 10) (List.mem_range.2 (by omega))
          rw [Bool.and_eq_true, beq_iff_eq, beq_iff_eq, Nat.add_sub_of_le (by omega)] at hchar
          exact .inr (hc.trans hchar.2)
        · cases h
  · have hdigit := List.all_eq_true.1 hvalue d (List.mem_range.2 hd)
    rw [Bool.and_eq_true, beq_iff_eq, beq_iff_eq] at hdigit
    rintro (rfl | rfl)
    · exact hdigit.1
    · exact hdigit.2

theorem digit?_eq_some {base d : Nat} {c : Char} (hbase : base ≤ 16) :
    digit? base c = some d ↔ DigitOf base d c := by
  rw [digit?, Option.filter_eq_some_iff, decide_eq_true_eq, DigitOf, and_comm]
  refine and_congr_right fun hd => digitValue_eq_some (by omega)

/-- Digits are read from the highest place down. -/
theorem digits?_eq_some {base acc n : Nat} {cs : List Char} (hbase : base ≤ 16) :
    digits? base acc cs = some n ↔ ∃ ds, List.Forall₂ (DigitOf base) ds cs ∧
      Nat.ofDigits base ds.reverse + acc * base ^ cs.length = n := by
  induction cs generalizing acc with
  | nil => simp [digits?, List.forall₂_nil_right_iff]
  | cons c cs ih =>
      have hstep (d : Nat) (ds : List Nat) (hlength : ds.length = cs.length) :
          Nat.ofDigits base (d :: ds).reverse + acc * base ^ (cs.length + 1) =
            Nat.ofDigits base ds.reverse + (acc * base + d) * base ^ cs.length := by
        rw [List.reverse_cons, Nat.ofDigits_append, Nat.ofDigits_singleton, List.length_reverse,
          hlength, Nat.pow_succ]
        ring
      cases hc : digit? base c with
      | none =>
          simp only [digits?, hc, reduceCtorEq, false_iff]
          rintro ⟨ds, hds, -⟩
          cases hds with
          | cons hd _ =>
              rw [(digit?_eq_some hbase).2 hd] at hc
              cases hc
      | some d =>
          simp only [digits?, hc, ih, List.length_cons]
          constructor
          · rintro ⟨ds, hds, hn⟩
            exact ⟨d :: ds, .cons ((digit?_eq_some hbase).1 hc) hds,
              (hstep d ds hds.length_eq).trans hn⟩
          · rintro ⟨ds, hds, hn⟩
            cases hds with
            | @cons e _ ds _ he hds =>
                rw [(digit?_eq_some hbase).2 he, Option.some.injEq] at hc
                subst hc
                exact ⟨ds, hds, (hstep e ds hds.length_eq).symm.trans hn⟩

theorem numeral?_eq_some {base n : Nat} {cs : List Char} (hbase : base ≤ 16) :
    numeral? base cs = some n ↔ Spells base cs n := by
  unfold numeral? Spells
  split
  · rename_i hempty
    simp [List.isEmpty_iff.1 hempty]
  · rename_i hempty
    have hne : cs ≠ [] := fun h => hempty (List.isEmpty_iff.2 h)
    simp only [digits?_eq_some hbase, Nat.zero_mul, Nat.add_zero, hne, ne_eq, not_false_eq_true,
      true_and]

theorem pieces_eq_iff {sep : Char} {cs : List Char} {ps : List (List Char)} :
    pieces sep cs = ps ↔ ps ≠ [] ∧ (∀ p ∈ ps, sep ∉ p) ∧ [sep].intercalate ps = cs := by
  rw [← join_eq_intercalate]
  constructor
  · rintro rfl
    exact ⟨List.cons_ne_nil _ _, fun p => not_mem_of_mem_pieces, join_pieces sep cs⟩
  · rintro ⟨hne, hfree, rfl⟩
    exact pieces_join hne hfree

end Text

namespace NumericHost

open Text

/-- A part of a classic IPv4 host and its value: hexadecimal after `0x`, octal after another leading
zero, else decimal. -/
inductive Part : List Char → Nat → Prop
  | hexadecimal {x : Char} {cs : List Char} {n : Nat} (hx : x = 'x' ∨ x = 'X')
      (h : Spells 16 cs n) : Part ('0' :: x :: cs) n
  | octal {cs : List Char} {n : Nat} (h : Spells 8 cs n) : Part ('0' :: cs) n
  | decimal {cs : List Char} {n : Nat} (h : Spells 10 cs n)
      (hlead : cs.head? ≠ some '0' ∨ cs.length = 1) : Part cs n

theorem not_spells_of_head {base n : Nat} {c : Char} {cs : List Char} (hbase : base ≤ 16)
    (hc : digit? base c = none) : ¬Spells base (c :: cs) n := by
  rintro ⟨-, ds, hds, -⟩
  cases hds with
  | cons hd _ =>
      rw [(digit?_eq_some hbase).2 hd] at hc
      cases hc

/-- A part that begins with `0` and something else is none but hexadecimal or octal. -/
theorem part_zero_cons {c : Char} {cs : List Char} {n : Nat} :
    Part ('0' :: c :: cs) n ↔ ((c = 'x' ∨ c = 'X') ∧ Spells 16 cs n) ∨ Spells 8 (c :: cs) n := by
  constructor
  · intro h
    cases h with
    | hexadecimal hx h => exact .inl ⟨hx, h⟩
    | octal h => exact .inr h
    | decimal h hlead => simp at hlead
  · rintro (⟨hx, h⟩ | h)
    · exact .hexadecimal hx h
    · exact .octal h

theorem part?_eq_some {cs : List Char} {n : Nat} :
    part? cs = some n ↔ Part cs n ∧ n < 2 ^ 32 := by
  have hx : ∀ digits, ¬Spells 8 ('x' :: digits) n :=
    fun _ => not_spells_of_head (by decide) (by decide)
  have hX : ∀ digits, ¬Spells 8 ('X' :: digits) n :=
    fun _ => not_spells_of_head (by decide) (by decide)
  simp only [part?, Option.filter_eq_some_iff, decide_eq_true_eq]
  refine and_congr_left fun _ => ?_
  split
  · rw [part_zero_cons, numeral?_eq_some (by decide)]
    simp [hx]
  · rw [part_zero_cons, numeral?_eq_some (by decide)]
    simp [hX]
  · rename_i c digits hnx hnX
    rw [part_zero_cons, numeral?_eq_some (by decide)]
    have hc : ¬(c = 'x' ∨ c = 'X') := by
      rintro (rfl | rfl)
      · exact hnx rfl
      · exact hnX rfl
    simp [hc]
  · rename_i hlone
    rw [numeral?_eq_some (by decide)]
    constructor
    · intro h
      refine .decimal h ?_
      match cs with
      | [] => exact .inl (by simp)
      | [_] => exact .inr rfl
      | c :: d :: digits =>
          refine .inl fun hc => ?_
          obtain rfl := Option.some.inj hc
          exact hlone _ _ rfl
    · intro h
      cases h with
      | hexadecimal _ _ => exact absurd rfl (hlone _ _)
      | @octal cs _ h =>
          cases cs with
          | nil => exact absurd rfl h.1
          | cons c digits => exact absurd rfl (hlone _ _)
      | decimal h _ => exact h

/-- The number that the values of parts stand for in an address of so many octets: each of the first
ones is an octet, and the last one fills the octets that are left. -/
structure Stands (width : Nat) (front : List Nat) (last n : Nat) : Prop where
  few : front.length < width
  octets : ∀ d ∈ front, d ≤ 255
  fits : last < 256 ^ (width - front.length)
  sum : n = (front.mapIdx fun i d => d * 256 ^ (width - 1 - i)).sum + last

theorem stands_nil {width last n : Nat} :
    Stands width [] last n ↔ 0 < width ∧ last < 256 ^ width ∧ n = last := by
  constructor
  · rintro ⟨few, -, fits, sum⟩
    exact ⟨few, fits, by simpa using sum⟩
  · rintro ⟨few, fits, rfl⟩
    exact ⟨few, by simp, fits, by simp⟩

theorem stands_cons {width d last n : Nat} {front : List Nat} :
    Stands (width + 1) (d :: front) last n ↔
      d ≤ 255 ∧ ∃ m, Stands width front last m ∧ n = d * 256 ^ width + m := by
  have hmap : front.mapIdx (fun i d => d * 256 ^ (width + 1 - 1 - (i + 1))) =
      front.mapIdx fun i d => d * 256 ^ (width - 1 - i) := by
    congr 1
    funext i d
    rw [show width + 1 - 1 - (i + 1) = width - 1 - i by omega]
  constructor
  · rintro ⟨few, octets, fits, sum⟩
    simp only [List.length_cons, Nat.add_lt_add_iff_right, List.mem_cons, forall_eq_or_imp,
      Nat.add_sub_add_right, List.mapIdx_cons, hmap, List.sum_cons] at few octets fits sum
    exact ⟨octets.1, _, ⟨few, octets.2, fits, rfl⟩, by rw [sum]; simp [Nat.add_assoc]⟩
  · rintro ⟨hd, m, ⟨few, octets, fits, rfl⟩, rfl⟩
    refine ⟨by simpa using few, by simpa using ⟨hd, octets⟩, by simpa using fits, ?_⟩
    rw [List.mapIdx_cons, hmap, List.sum_cons, Nat.add_sub_cancel, Nat.sub_zero, Nat.add_assoc]

theorem Stands.lt {width last n : Nat} {front : List Nat} (h : Stands width front last n) :
    n < 256 ^ width := by
  induction front generalizing width n with
  | nil =>
      obtain ⟨-, hlast, rfl⟩ := stands_nil.1 h
      exact hlast
  | cons d front ih =>
      cases width with
      | zero => exact absurd h.few (Nat.not_lt_zero _)
      | succ width =>
          obtain ⟨hd, m, hm, rfl⟩ := stands_cons.1 h
          have := ih hm
          calc d * 256 ^ width + m < d * 256 ^ width + 256 ^ width := by omega
            _ = (d + 1) * 256 ^ width := by rw [Nat.add_mul, Nat.one_mul]
            _ ≤ 256 * 256 ^ width := Nat.mul_le_mul_right _ (by omega)
            _ = 256 ^ (width + 1) := by rw [Nat.pow_succ, Nat.mul_comm]

theorem Stands.last_le {width last n : Nat} {front : List Nat} (h : Stands width front last n) :
    last ≤ n := by
  rw [h.sum]
  exact Nat.le_add_left _ _

theorem value?_eq_some {k n : Nat} {ds : List Nat} (hlength : ds.length ≤ k + 1) :
    value? (256 ^ k) ds = some n ↔
      ∃ front last, ds = front ++ [last] ∧ Stands (k + 1) front last n := by
  induction ds generalizing k n with
  | nil => simp [value?]
  | cons p ds ih =>
      cases ds with
      | nil =>
          simp only [value?, Option.ite_none_right_eq_some, Option.some.injEq]
          constructor
          · rintro ⟨hp, rfl⟩
            refine ⟨[], p, rfl, stands_nil.2 ⟨Nat.succ_pos k, ?_, rfl⟩⟩
            rwa [Nat.pow_succ, Nat.mul_comm]
          · rintro ⟨front, last, hds, h⟩
            cases front with
            | nil =>
                obtain rfl : p = last := (List.cons.inj hds).1
                obtain ⟨-, hp, rfl⟩ := stands_nil.1 h
                exact ⟨by rwa [Nat.pow_succ, Nat.mul_comm] at hp, rfl⟩
            | cons d front => simp at hds
      | cons q rest =>
          obtain ⟨j, rfl⟩ : ∃ j, k = j + 1 := ⟨k - 1, by simp at hlength; omega⟩
          have hplace : 256 ^ (j + 1) / 256 = 256 ^ j := by
            rw [Nat.pow_succ, Nat.mul_div_cancel _ (by decide)]
          have hrest {m : Nat} := ih (k := j) (n := m) (by simpa using hlength)
          simp only [value?, hplace, Option.ite_none_right_eq_some, Option.map_eq_some_iff, hrest]
          constructor
          · rintro ⟨hp, m, ⟨front, last, hds, h⟩, rfl⟩
            exact ⟨p :: front, last, by rw [hds, List.cons_append],
              stands_cons.2 ⟨by omega, m, h, rfl⟩⟩
          · rintro ⟨front, last, hds, h⟩
            cases front with
            | nil => simp at hds
            | cons d front =>
                rw [List.cons_append, List.cons.injEq] at hds
                obtain ⟨rfl, hds⟩ := hds
                obtain ⟨hp, m, hm, rfl⟩ := stands_cons.1 h
                exact ⟨by omega, m, ⟨front, last, hds, hm⟩, rfl⟩

theorem value?_concat {k last n : Nat} {front : List Nat} (hlength : front.length ≤ k) :
    value? (256 ^ k) (front ++ [last]) = some n ↔ Stands (k + 1) front last n := by
  have hds : (front ++ [last]).length ≤ k + 1 := by
    rw [List.length_append, List.length_singleton]
    exact Nat.succ_le_succ hlength
  rw [value?_eq_some hds]
  constructor
  · rintro ⟨front', last', heq, h⟩
    obtain ⟨rfl, hlast⟩ := List.append_inj' heq rfl
    rwa [(List.cons.inj hlast).1]
  · intro h
    exact ⟨front, last, rfl, h⟩

def blanks : List Char := [' ', '\t', '\n', '\x0c', '\r']

/-- A classic IPv4 host: before the first blank one to four parts between dots, each below 2^32, and
the address they stand for. -/
def Classic (cs : List Char) (a : Ipv4) : Prop :=
  ∃ text rest fields front last,
    cs = text ++ rest ∧ (∀ c ∈ text, c ∉ blanks) ∧ (∀ c ∈ rest.head?, c ∈ blanks) ∧
    ['.'].intercalate fields = text ∧ (∀ field ∈ fields, '.' ∉ field) ∧
    List.Forall₂ Part fields (front ++ [last]) ∧ (∀ d ∈ front ++ [last], d < 2 ^ 32) ∧
    Stands 4 front last a.toNat

theorem isAsciiBlank_iff {c : Char} : isAsciiBlank c = true ↔ c ∈ blanks := by
  simp [isAsciiBlank, blanks, or_assoc]

theorem takeWhile_eq_iff {p : Char → Bool} {cs text : List Char} :
    cs.takeWhile p = text ↔
      ∃ rest, cs = text ++ rest ∧ (∀ c ∈ text, p c = true) ∧ ∀ c ∈ rest.head?, p c = false := by
  constructor
  · rintro rfl
    refine ⟨cs.dropWhile p, List.takeWhile_append_dropWhile.symm, ?_, ?_⟩
    · exact fun c hc => List.mem_takeWhile_imp hc
    · intro c hc
      have hnot := List.head?_dropWhile_not p cs
      rw [Option.mem_def.1 hc] at hnot
      simpa using hnot
  · rintro ⟨rest, rfl, hall, hstop⟩
    rw [List.takeWhile_append_of_pos hall]
    cases rest with
    | nil => simp
    | cons c rest => simp [hstop c rfl]

theorem mapM_eq_some_iff {α β : Type} {f : α → Option β} {xs : List α} {ys : List β} :
    xs.mapM f = some ys ↔ List.Forall₂ (fun x y => f x = some y) xs ys := by
  induction xs generalizing ys with
  | nil => simp [eq_comm, List.forall₂_nil_left_iff]
  | cons x xs ih =>
      rw [List.forall₂_cons_left_iff]
      cases hx : f x with
      | none => simp [hx]
      | some y =>
          simp only [List.mapM_cons, hx, Option.bind_eq_bind, Option.bind_some,
            Option.bind_eq_some_iff, ← ih]
          simp [eq_comm]

theorem forall₂_part?_iff {fields : List (List Char)} {ds : List Nat} :
    List.Forall₂ (fun field d => part? field = some d) fields ds ↔
      List.Forall₂ Part fields ds ∧ ∀ d ∈ ds, d < 2 ^ 32 := by
  induction fields generalizing ds with
  | nil => simp +contextual [List.forall₂_nil_left_iff]
  | cons field fields ih =>
      cases ds with
      | nil => simp
      | cons d ds =>
          rw [List.forall₂_cons, List.forall₂_cons, part?_eq_some, ih, List.forall_mem_cons]
          exact and_and_and_comm

/-- A number below 2^32 is the number of the address made of it. -/
theorem ofNat_eq_iff {n : Nat} {a : Ipv4} (hn : n < 0x100000000) :
    Ipv4.ofNat n = a ↔ a.toNat = n := by
  constructor
  · rintro rfl
    rw [Ipv4.toNat_ofNat, Nat.mod_eq_of_lt hn]
  · rintro rfl
    exact Ipv4.ofNat_toNat a

theorem ipv4?_eq_some {cs : List Char} {a : Ipv4} : ipv4? cs = some a ↔ Classic cs a := by
  have hvalue {n : Nat} {ds : List Nat} (hds : ds.length ≤ 4) : value? 0x1000000 ds = some n ↔
      ∃ front last, ds = front ++ [last] ∧ Stands 4 front last n := value?_eq_some hds
  have hunfold : ipv4? cs = some a ↔ ∃ text, cs.takeWhile (! isAsciiBlank ·) = text ∧
      ∃ fields, pieces '.' text = fields ∧ fields.length ≤ 4 ∧
        ∃ ds, fields.mapM part? = some ds ∧
          ∃ n, value? 0x1000000 ds = some n ∧ Ipv4.ofNat n = a := by
    simp [ipv4?, Option.bind_eq_some_iff]
  rw [hunfold]
  constructor
  · rintro ⟨text, htext, fields, hfields, hfew, ds, hds, n, hn, ha⟩
    obtain ⟨rest, hrest, hbefore, hstop⟩ := takeWhile_eq_iff.1 htext
    obtain ⟨-, hfree, hjoin⟩ := pieces_eq_iff.1 hfields
    rw [mapM_eq_some_iff] at hds
    have hlength := hds.length_eq
    obtain ⟨front, last, rfl, hstands⟩ := (hvalue (by omega)).1 hn
    obtain ⟨hparts, hlt⟩ := forall₂_part?_iff.1 hds
    refine ⟨text, rest, fields, front, last, hrest, ?_, ?_, hjoin, hfree, hparts, hlt, ?_⟩
    · intro c hc
      rw [← isAsciiBlank_iff]
      simpa using hbefore c hc
    · intro c hc
      rw [← isAsciiBlank_iff]
      simpa using hstop c hc
    · rwa [(ofNat_eq_iff hstands.lt).1 ha]
  · rintro ⟨text, rest, fields, front, last, hrest, hbefore, hstop, hjoin, hfree, hparts, hlt,
      hstands⟩
    have hlength := hparts.length_eq
    have hfew := hstands.few
    rw [List.length_append, List.length_singleton] at hlength
    have hne : fields ≠ [] := List.ne_nil_of_length_eq_add_one hlength
    refine ⟨text, takeWhile_eq_iff.2 ⟨rest, hrest, ?_, ?_⟩, fields,
      pieces_eq_iff.2 ⟨hne, hfree, hjoin⟩, by omega, front ++ [last],
      mapM_eq_some_iff.2 (forall₂_part?_iff.2 ⟨hparts, hlt⟩), a.toNat,
      (hvalue ?_).2 ⟨front, last, rfl, hstands⟩, Ipv4.ofNat_toNat a⟩
    · intro c hc
      have := hbefore c hc
      rw [← isAsciiBlank_iff] at this
      simpa using this
    · intro c hc
      have := hstop c hc
      rw [← isAsciiBlank_iff] at this
      simpa using this
    · rw [List.length_append, List.length_singleton]
      omega

/-! ### On machine words -/

/-- What a machine does not forgive: a place outside of four words, a difference below zero, a shift
by the width of a word. -/
inductive Fault
  | index
  | underflow
  | shift
deriving DecidableEq, Repr

namespace Words

def minus (m n : Nat) : Except Fault Nat :=
  if n ≤ m then .ok (m - n) else .error .underflow

def shiftLeft (w : UInt32) (n : Nat) : Except Fault UInt32 :=
  if n < 32 then .ok (w <<< UInt32.ofNat n) else .error .shift

def shiftRight (w : UInt32) (n : Nat) : Except Fault UInt32 :=
  if n < 32 then .ok (w >>> UInt32.ofNat n) else .error .shift

def dropFirst (cs : List Char) (n : Nat) : Except Fault (List Char) :=
  if n ≤ cs.length then .ok (cs.drop n) else .error .index

def word (ws : Vector UInt32 4) (i : Nat) : Except Fault UInt32 :=
  if h : i < 4 then .ok ws[i] else .error .index

def setWord (ws : Vector UInt32 4) (i : Nat) (w : UInt32) : Except Fault (Vector UInt32 4) :=
  if h : i < 4 then .ok (ws.set i w) else .error .index

def firstWords (ws : Vector UInt32 4) (n : Nat) : Except Fault (List UInt32) :=
  if n ≤ 4 then .ok (ws.toList.take n) else .error .index

def part (cs : List Char) : Except Fault (Option UInt32) := do
  let (digits, base) ←
    match cs with
    | '0' :: 'x' :: digits => pure (digits, 16)
    | '0' :: 'X' :: digits => pure (digits, 16)
    | _ =>
        if 1 < cs.length ∧ cs.head? = some '0' then do pure (← dropFirst cs 1, 8)
        else pure (cs, 10)
  pure (((numeral? base digits).filter (· < 2 ^ 32)).map UInt32.ofNat)

/-- Puts the values of parts into the words from place `count` on, and counts them. -/
def fill (ws : Vector UInt32 4) (count : Nat) :
    List (List Char) → Except Fault (Option (Vector UInt32 4 × Nat))
  | [] => pure (some (ws, count))
  | field :: fields =>
      if count = 4 then pure none
      else do
        match ← part field with
        | none => pure none
        | some p => fill (← setWord ws count p) (count + 1) fields

/-- Whether the last part leaves the leading octets free. -/
def fits (last : UInt32) (bits : Nat) : Except Fault Bool :=
  if bits < 32 then do return (← shiftRight last bits) == 0 else pure true

/-- Puts octet `i` and those behind it in their places. -/
def place (value : UInt32) (i : Nat) : List UInt32 → Except Fault UInt32
  | [] => pure value
  | p :: ps => do
      let moved ← shiftLeft p (← minus 24 (8 * i))
      place (value ||| moved) (i + 1) ps

def assemble (ws : Vector UInt32 4) (count : Nat) : Except Fault (Option Ipv4) := do
  let leading ← minus count 1
  let front ← firstWords ws leading
  let last ← word ws leading
  if front.any (0xff < ·) then pure none
  else
    if ← fits last (← minus 32 (8 * front.length)) then
      return some ⟨(← place last 0 front).toBitVec⟩
    else pure none

def ipv4 (cs : List Char) : Except Fault (Option Ipv4) := do
  match ← fill (Vector.replicate 4 0) 0 (pieces '.' (cs.takeWhile (! isAsciiBlank ·))) with
  | none => pure none
  | some (ws, count) => assemble ws count

/-- `NumericHost.read?` as a machine does it. -/
def read (s : String) : Except Fault (Option IpAddr) :=
  match Ipv6.read? s with
  | some a => pure (some (.v6 a))
  | none => do return (← ipv4 s.toList).map .v4

/-- The part behind a leading zero is cut off only where there is one. -/
theorem part_eq (cs : List Char) : part cs = .ok ((part? cs).map UInt32.ofNat) := by
  unfold part?
  split
  · rfl
  · rfl
  · rename_i c digits hx hX
    unfold part
    split
    · rename_i heq
      exact absurd (List.cons.inj (List.cons.inj heq).2).1 hx
    · rename_i heq
      exact absurd (List.cons.inj (List.cons.inj heq).2).1 hX
    · have hlead : 1 < ('0' :: c :: digits).length ∧ ('0' :: c :: digits).head? = some '0' := by
        simp
      have hdrop : dropFirst ('0' :: c :: digits) 1 = .ok (c :: digits) := by simp [dropFirst]
      rw [if_pos hlead, hdrop]
      rfl
  · rename_i hx hX hzero
    unfold part
    split
    · exact absurd rfl (hx _)
    · exact absurd rfl (hX _)
    · have hlead : ¬(1 < cs.length ∧ cs.head? = some '0') := by
        rintro ⟨hlength, hhead⟩
        match cs with
        | c :: d :: rest =>
            obtain rfl := Option.some.inj hhead
            exact hzero d rest rfl
      rw [if_neg hlead]
      rfl

theorem fill_cons {ws : Vector UInt32 4} {count : Nat} (hcount : count < 4) (field : List Char)
    (fields : List (List Char)) : fill ws count (field :: fields) =
      match part? field with
      | none => .ok none
      | some d => fill (ws.set count (UInt32.ofNat d)) (count + 1) fields := by
  rw [fill, if_neg (Nat.ne_of_lt hcount), part_eq]
  cases part? field with
  | none => rfl
  | some d =>
      simp only [Option.map_some, setWord, dif_pos hcount]
      rfl

/-- Too many parts, or one that is none, and the words do not matter. -/
theorem fill_of_rest {ws : Vector UInt32 4} {count : Nat} {fields : List (List Char)}
    (hcount : count ≤ 4) (h : 4 < count + fields.length ∨
      ∀ ds, ¬List.Forall₂ (fun field d => part? field = some d) fields ds) :
    fill ws count fields = .ok none := by
  induction fields generalizing ws count with
  | nil =>
      rcases h with hmany | hnone
      · simp only [List.length_nil] at hmany
        omega
      · exact absurd .nil (hnone [])
  | cons field fields ih =>
      by_cases hfull : count = 4
      · rw [fill, if_pos hfull]
        rfl
      · rw [fill_cons (by omega)]
        cases hfield : part? field with
        | none => rfl
        | some d =>
            refine ih (by omega) ?_
            refine h.imp (fun hmany => ?_) fun hnone => ?_
            · rw [List.length_cons] at hmany
              omega
            · exact fun ds hds => hnone (d :: ds) (.cons hfield hds)

theorem fill_of_parts (ws : Vector UInt32 4) (count : Nat) {fields : List (List Char)}
    {ds : List Nat} (hparts : List.Forall₂ (fun field d => part? field = some d) fields ds)
    (hcount : count + fields.length ≤ 4) :
    ∃ filled, fill ws count fields = .ok (some (filled, count + fields.length)) ∧
      filled.toList.take (count + fields.length) =
        ws.toList.take count ++ ds.map UInt32.ofNat := by
  induction hparts generalizing ws count with
  | nil => exact ⟨ws, rfl, by simp⟩
  | @cons field d fields ds hd _ ih =>
      rw [List.length_cons] at hcount
      have hlt : count < 4 := by omega
      obtain ⟨filled, hfill, htake⟩ :=
        ih (ws.set count (UInt32.ofNat d)) (count + 1) (by omega)
      have hlength : count + (field :: fields).length = count + 1 + fields.length := by
        rw [List.length_cons]
        omega
      have hset : (ws.set count (UInt32.ofNat d)).toList.take (count + 1) =
          ws.toList.take count ++ [UInt32.ofNat d] := by
        have hlength : count < ws.toList.length := by rw [Vector.length_toList]; exact hlt
        rw [Vector.toList_set, List.set_eq_take_append_cons_drop, if_pos hlength, List.take_append,
          List.length_take, Nat.min_eq_left (Nat.le_of_lt hlength), List.take_take,
          Nat.min_eq_right (Nat.le_succ count), Nat.add_sub_cancel_left]
        rfl
      refine ⟨filled, ?_, ?_⟩
      · rw [fill_cons hlt, hd, hlength]
        exact hfill
      · rw [hlength, htake, hset, List.map_cons, List.append_assoc, List.singleton_append]

/-- An octet between what stands above it and what fits below it. -/
theorem or_octet {k high low d : Nat} (hd : d < 2 ^ 8) (hlow : low < 2 ^ k) :
    (high * 2 ^ (k + 8) + low) ||| d <<< k = (high * 2 ^ 8 + d) * 2 ^ k + low := by
  have habove : high * 2 ^ (k + 8) + low = (high <<< 8) <<< k ||| low := by
    rw [← Nat.shiftLeft_add_eq_or_of_lt hlow, ← Nat.shiftLeft_add, Nat.shiftLeft_eq, Nat.add_comm 8]
  have hmiddle : high * 2 ^ 8 + d = high <<< 8 ||| d := by
    rw [← Nat.shiftLeft_add_eq_or_of_lt hd, Nat.shiftLeft_eq]
  calc (high * 2 ^ (k + 8) + low) ||| d <<< k
      = ((high <<< 8) <<< k ||| low) ||| d <<< k := by rw [habove]
    _ = ((high <<< 8) <<< k ||| d <<< k) ||| low := by
        rw [Nat.or_assoc, Nat.or_comm low, ← Nat.or_assoc]
    _ = (high <<< 8 ||| d) <<< k ||| low := by rw [Nat.shiftLeft_or_distrib]
    _ = (high * 2 ^ 8 + d) * 2 ^ k + low := by
        rw [← hmiddle, ← Nat.shiftLeft_add_eq_or_of_lt hlow, Nat.shiftLeft_eq]

theorem pow_256 (w : Nat) : 256 ^ w = 2 ^ (8 * w) := by rw [Nat.pow_mul]

/-- An octet that is shifted by whole octets stays within its word. -/
theorem toNat_shiftLeft_octet {p : UInt32} {w : Nat} (hp : p.toNat ≤ 255) (hw : w < 4) :
    (p <<< UInt32.ofNat (8 * w)).toNat = p.toNat <<< (8 * w) := by
  have hfits : p.toNat * 2 ^ (8 * w) < 2 ^ 32 := by
    calc p.toNat * 2 ^ (8 * w) < 2 ^ 8 * 2 ^ (8 * w) :=
          Nat.mul_lt_mul_of_pos_right (by omega) (Nat.two_pow_pos _)
      _ = 2 ^ (8 + 8 * w) := (Nat.pow_add ..).symm
      _ ≤ 2 ^ 32 := Nat.pow_le_pow_right (by decide) (by omega)
  have hshift : 8 * w < 32 := by omega
  have hword : 8 * w < 2 ^ 32 := by omega
  rw [UInt32.toNat_shiftLeft, UInt32.toNat_ofNat', Nat.mod_eq_of_lt hword,
    Nat.mod_eq_of_lt hshift, Nat.shiftLeft_eq, Nat.mod_eq_of_lt hfits]

/-- Every octet is shifted by less than a word, and finds its place empty. -/
theorem place_stands {width : Nat} {ps : List UInt32} {value : UInt32} {high low n : Nat}
    (hwidth : width ≤ 4) (hvalue : value.toNat = high * 256 ^ width + low)
    (h : Stands width (ps.map UInt32.toNat) low n) :
    ∃ v, place value (4 - width) ps = .ok v ∧ v.toNat = high * 256 ^ width + n := by
  induction ps generalizing width value high n with
  | nil =>
      obtain ⟨-, -, rfl⟩ := stands_nil.1 h
      exact ⟨value, rfl, hvalue⟩
  | cons p ps ih =>
      cases width with
      | zero => exact absurd h.few (Nat.not_lt_zero _)
      | succ w =>
          obtain ⟨hp, m, hm, rfl⟩ := stands_cons.1 h
          have hminus : minus 24 (8 * (4 - (w + 1))) = .ok (8 * w) := by
            rw [minus, if_pos (by omega)]
            congr 1
            omega
          have hshift : shiftLeft p (8 * w) = .ok (p <<< UInt32.ofNat (8 * w)) := by
            rw [shiftLeft, if_pos (by omega)]
          have hlow : low < 2 ^ (8 * w) := by
            rw [← pow_256]
            exact Nat.lt_of_le_of_lt hm.last_le hm.lt
          have hnext : (value ||| p <<< UInt32.ofNat (8 * w)).toNat =
              (high * 2 ^ 8 + p.toNat) * 256 ^ w + low := by
            rw [UInt32.toNat_or, toNat_shiftLeft_octet hp (by omega), hvalue, pow_256, pow_256,
              Nat.mul_succ, or_octet (by omega) hlow]
          obtain ⟨v, hv, hsum⟩ := ih (by omega) hnext hm
          have hplaces : place value (4 - (w + 1)) (p :: ps) =
              place (value ||| p <<< UInt32.ofNat (8 * w)) (4 - (w + 1) + 1) ps := by
            simp only [place, hminus, hshift, bind, Except.bind]
          refine ⟨v, ?_, ?_⟩
          · rw [hplaces, show 4 - (w + 1) + 1 = 4 - w by omega]
            exact hv
          · rw [hsum]
            ring

theorem fits_eq {k last : Nat} (hk : k < 4) (hlast : last < 2 ^ 32) :
    fits (UInt32.ofNat last) (32 - 8 * k) = .ok (decide (last < 256 ^ (4 - k))) := by
  have hplace : 256 ^ (4 - k) = 2 ^ (32 - 8 * k) := by
    rw [pow_256, Nat.mul_sub]
  rw [hplace, fits]
  by_cases hzero : k = 0
  · subst hzero
    exact congrArg Except.ok (decide_eq_true hlast).symm
  · have hshift : 32 - 8 * k < 32 := by omega
    have hword : 32 - 8 * k < 2 ^ 32 := by omega
    have hnone : UInt32.ofNat last >>> UInt32.ofNat (32 - 8 * k) = 0 ↔
        last < 2 ^ (32 - 8 * k) := by
      rw [← UInt32.toNat_inj, UInt32.toNat_shiftRight, UInt32.toNat_ofNat', UInt32.toNat_ofNat',
        Nat.mod_eq_of_lt hlast, Nat.mod_eq_of_lt hword, Nat.mod_eq_of_lt hshift,
        Nat.shiftRight_eq_div_pow]
      exact Nat.div_eq_zero_iff_lt (Nat.two_pow_pos _)
    simp only [if_pos hshift, shiftRight, bind, Except.bind, pure, Except.pure, Except.ok.injEq]
    rw [Bool.eq_iff_iff, beq_iff_eq, hnone, decide_eq_true_iff]

theorem map_toNat_ofNat {ds : List Nat} (h : ∀ d ∈ ds, d < 2 ^ 32) :
    (ds.map UInt32.ofNat).map UInt32.toNat = ds := by
  rw [List.map_map]
  exact (List.map_congr_left fun d hd => UInt32.toNat_ofNat_of_lt' (h d hd)).trans (List.map_id ds)

/-- A word above an octet is found if and only if there is a value above it. -/
theorem any_above_octet {ds : List Nat} (h : ∀ d ∈ ds, d < 2 ^ 32) :
    (ds.map UInt32.ofNat).any (0xff < ·) = true ↔ ¬∀ d ∈ ds, d ≤ 255 := by
  have hany (ws : List UInt32) :
      ws.any (0xff < ·) = true ↔ ¬∀ d ∈ ws.map UInt32.toNat, d ≤ 255 := by
    simp [UInt32.lt_iff_toNat_lt]
  rw [hany, map_toNat_ofNat h]

/-- The words of a host of one to four parts are put together as their values are. -/
theorem assemble_eq {ws : Vector UInt32 4} {front : List Nat} {last : Nat}
    (hfew : front.length < 4) (hlt : ∀ d ∈ front ++ [last], d < 2 ^ 32)
    (hws : ws.toList.take (front.length + 1) = (front ++ [last]).map UInt32.ofNat) :
    assemble ws (front.length + 1) =
      .ok ((value? 0x1000000 (front ++ [last])).map Ipv4.ofNat) := by
  have hleading : minus (front.length + 1) 1 = .ok front.length := rfl
  have hfront : firstWords ws front.length = .ok (front.map UInt32.ofNat) := by
    have htake := congrArg (List.take front.length) hws
    rw [List.take_take, Nat.min_eq_left (Nat.le_succ _), List.map_append,
      List.take_left' (List.length_map _)] at htake
    rw [firstWords, if_pos (Nat.le_of_lt hfew), htake]
  have hlast : word ws front.length = .ok (UInt32.ofNat last) := by
    have hget := congrArg (·[front.length]?) hws
    simp [hfew] at hget
    simp [word, hfew, hget]
  have hbits : minus 32 (8 * (front.map UInt32.ofNat).length) = .ok (32 - 8 * front.length) := by
    rw [List.length_map, minus, if_pos (by omega)]
  have hoctet : ∀ d ∈ front, d < 2 ^ 32 := fun d hd => hlt d (List.mem_append_left _ hd)
  have hback := map_toNat_ofNat hoctet
  have hany := any_above_octet hoctet
  have hlast' : (UInt32.ofNat last).toNat = last :=
    UInt32.toNat_ofNat_of_lt' (hlt last (by simp))
  have hfits := fits_eq hfew (hlt last (by simp))
  have hvalue {n : Nat} : value? 0x1000000 (front ++ [last]) = some n ↔ Stands 4 front last n :=
    value?_concat (Nat.le_of_lt_succ hfew)
  have hnone (h : ∀ n, ¬Stands 4 front last n) : value? 0x1000000 (front ++ [last]) = none :=
    Option.eq_none_iff_forall_ne_some.2 fun n hn => h n (hvalue.1 hn)
  by_cases hoctets : ∀ d ∈ front, d ≤ 255
  · have hno : ¬(front.map UInt32.ofNat).any (0xff < ·) = true := fun h => hany.1 h hoctets
    by_cases hsmall : last < 256 ^ (4 - front.length)
    · obtain ⟨n, hstands⟩ : ∃ n, Stands 4 front last n := ⟨_, hfew, hoctets, hsmall, rfl⟩
      have hstart : (UInt32.ofNat last).toNat = 0 * 256 ^ 4 + last := by
        rw [hlast', Nat.zero_mul, Nat.zero_add]
      obtain ⟨v, hplace, hv⟩ := place_stands (Nat.le_refl 4) hstart (hback.symm ▸ hstands)
      rw [Nat.zero_mul, Nat.zero_add] at hv
      have hbits' : Ipv4.ofNat v.toNat = ⟨v.toBitVec⟩ := by
        rw [Ipv4.ofNat, ← UInt32.toNat_toBitVec, BitVec.ofNat_toNat, BitVec.setWidth_eq]
      rw [hvalue.2 hstands, Option.map_some, ← hv, hbits']
      simp only [assemble, hleading, hfront, hlast, hbits, hfits, if_neg hno, decide_eq_true hsmall,
        hplace, bind, Except.bind, if_true]
      rfl
    · rw [hnone fun n h => hsmall h.fits]
      simp only [assemble, hleading, hfront, hlast, hbits, hfits, if_neg hno,
        decide_eq_false hsmall, bind, Except.bind, Bool.false_eq_true, if_false]
      rfl
  · rw [hnone fun n h => hoctets h.octets]
    simp only [assemble, hleading, hfront, hlast, if_pos (hany.2 hoctets), bind, Except.bind]
    rfl

theorem ipv4_eq (cs : List Char) : ipv4 cs = .ok (ipv4? cs) := by
  generalize hfields : pieces '.' (cs.takeWhile (! isAsciiBlank ·)) = fields
  have hne : fields ≠ [] := (pieces_eq_iff.1 hfields).1
  by_cases hmany : 4 < fields.length
  · have hfill : fill (Vector.replicate 4 0) 0 fields = .ok none :=
      fill_of_rest (by decide) (.inl (by omega))
    simp only [ipv4, ipv4?, hfields, hfill, if_pos hmany]
    rfl
  · cases hparts : fields.mapM part? with
    | none =>
        have hfill : fill (Vector.replicate 4 0) 0 fields = .ok none := by
          refine fill_of_rest (by decide) (.inr fun ds hds => ?_)
          rw [mapM_eq_some_iff.2 hds] at hparts
          cases hparts
        simp only [ipv4, ipv4?, hfields, hfill, if_neg hmany, hparts]
        rfl
    | some ds =>
        have hds := mapM_eq_some_iff.1 hparts
        have hlength := hds.length_eq
        obtain ⟨ws, hfill, hws⟩ := fill_of_parts (Vector.replicate 4 0) 0 hds (by omega)
        obtain ⟨front, last, rfl⟩ : ∃ front last, ds = front ++ [last] := by
          rcases List.eq_nil_or_concat' ds with rfl | hlast
          · exact absurd (List.length_eq_zero_iff.1 hlength) hne
          · exact hlast
        rw [List.length_append, List.length_singleton] at hlength
        rw [hlength, Nat.zero_add] at hfill hws
        have hwords : ws.toList.take (front.length + 1) = (front ++ [last]).map UInt32.ofNat := by
          simpa using hws
        have hassemble := assemble_eq (by omega) (forall₂_part?_iff.1 hds).2 hwords
        simp only [ipv4, ipv4?, hfields, hfill, if_neg hmany, hparts, bind, Except.bind, hassemble]
        rfl

theorem read_eq (s : String) : read s = .ok (read? s) := by
  unfold read read?
  cases Ipv6.read? s with
  | some a => rfl
  | none =>
      simp only [ipv4_eq]
      rfl

end Words

/-- A host is numeric if its whole text is that of an IPv6 address, or else if it is a classic IPv4
host, and the address is the one the text stands for. Read on machine words it is read without a
fault, and the same. -/
theorem read_accepts_grammar (s : String) :
    (∀ a, read? s = some (.v6 a) ↔ Ipv6.read? s = some a) ∧
      (∀ a, read? s = some (.v4 a) ↔ Ipv6.read? s = none ∧ Classic s.toList a) ∧
      (read? s = none ↔ Ipv6.read? s = none ∧ ∀ a, ¬Classic s.toList a) ∧
      Words.read s = .ok (read? s) := by
  have hclassic (a : Ipv4) : ipv4? s.toList = some a ↔ Classic s.toList a := ipv4?_eq_some
  unfold read?
  cases hv6 : Ipv6.read? s with
  | some b =>
      refine ⟨?_, ?_, ?_, ?_⟩
      · simp
      · simp
      · simp
      · simp [Words.read_eq, read?, hv6]
  | none =>
      refine ⟨?_, ?_, ?_, ?_⟩
      · simp
      · simp [hclassic]
      · simp [← hclassic, Option.eq_none_iff_forall_ne_some]
      · simp [Words.read_eq, read?, hv6]

example : read? "127.1.256" = some (.v4 (.of 127 1 1 0)) := by decide +kernel

example : read? "08.1" = none := by decide +kernel

end NumericHost

end Egress
