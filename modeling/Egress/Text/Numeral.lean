/-!
Numerals. `numeral? base` reads a non-empty run of digits and nothing else; `wordNumeral?` is the
form a port or a timeout is written in, with an optional plus sign and an upper bound. Durations are
only written: a time below a second in whole milliseconds, any other in seconds with as many
decimals as it takes, and no time at all in the smallest unit.
-/

namespace Egress.Text

/-- The value of a digit, letters in either case standing for ten and above. -/
def digitValue (c : Char) : Option Nat :=
  if '0' ≤ c ∧ c ≤ '9' then some (c.toNat - '0'.toNat)
  else if 'a' ≤ c ∧ c ≤ 'z' then some (c.toNat - 'a'.toNat + 10)
  else if 'A' ≤ c ∧ c ≤ 'Z' then some (c.toNat - 'A'.toNat + 10)
  else none

def digit? (base : Nat) (c : Char) : Option Nat :=
  (digitValue c).filter (· < base)

/-- Reads digits after a number already read. -/
def digits? (base : Nat) (acc : Nat) : List Char → Option Nat
  | [] => some acc
  | c :: cs =>
      match digit? base c with
      | some d => digits? base (acc * base + d) cs
      | none => none

def numeral? (base : Nat) (cs : List Char) : Option Nat :=
  if cs.isEmpty then none else digits? base 0 cs

/-- A decimal numeral below `bound`, optionally after one plus sign. -/
def wordNumeral? (bound : Nat) (cs : List Char) : Option Nat :=
  let digits := match cs with
    | '+' :: rest => rest
    | _ => cs
  (numeral? 10 digits).filter (· < bound)

def port? (s : String) : Option UInt16 :=
  (wordNumeral? 65536 s.toList).map UInt16.ofNat

def duration (ms : Nat) : String :=
  if ms = 0 then "0ns"
  else if ms < 1000 then s!"{ms}ms"
  else
    let seconds := ms / 1000
    let fraction := ms % 1000
    if fraction = 0 then s!"{seconds}s"
    else if fraction % 100 = 0 then s!"{seconds}.{fraction / 100}s"
    else if fraction % 10 = 0 then s!"{seconds}.{fraction / 100}{fraction / 10 % 10}s"
    else s!"{seconds}.{fraction / 100}{fraction / 10 % 10}{fraction % 10}s"

example : duration 0 = "0ns" ∧ duration 999 = "999ms" ∧ duration 1000 = "1s" ∧
    duration 1500 = "1.5s" ∧ duration 10050 = "10.05s" ∧ duration 60001 = "60.001s" := by
  decide +kernel

theorem digit?_digitChar {base d : Nat} (hbase : base ≤ 16) (hd : d < base) :
    digit? base d.digitChar = some d := by
  have hall : (List.range 16).all (fun d => digitValue d.digitChar == some d) = true := by decide
  have hvalue : digitValue d.digitChar = some d := by
    simpa using List.all_eq_true.1 hall d (List.mem_range.2 (Nat.lt_of_lt_of_le hd hbase))
  simp only [digit?, hvalue, Option.filter_some, hd, decide_true, if_true]

theorem digits?_append (base acc : Nat) (xs ys : List Char) :
    digits? base acc (xs ++ ys) = (digits? base acc xs).bind (digits? base · ys) := by
  induction xs generalizing acc with
  | nil => rfl
  | cons c xs ih =>
      simp only [List.cons_append, digits?]
      cases digit? base c with
      | none => rfl
      | some d => exact ih (acc * base + d)

theorem digits?_toDigits {base : Nat} (hpos : 1 < base) (hbase : base ≤ 16) (n : Nat) :
    digits? base 0 (Nat.toDigits base n) = some n := by
  induction n using Nat.strongRecOn with
  | ind n ih =>
      by_cases hn : n < base
      · simp only [Nat.toDigits_of_lt_base hn, digits?, digit?_digitChar hbase hn, Nat.zero_mul,
          Nat.zero_add]
      · have hle := Nat.le_of_not_lt hn
        have hless : n / base < n := Nat.div_lt_self (by omega) hpos
        have hlast : n % base < base := Nat.mod_lt n (by omega)
        rw [Nat.toDigits_of_base_le hpos hle, digits?_append, ih _ hless]
        simp only [Option.bind_some, digits?, digit?_digitChar hbase hlast, Nat.div_add_mod']

/-- Digits in any base up to 16 are read to the number they spell. -/
theorem numeral?_toDigits {base : Nat} (hpos : 1 < base) (hbase : base ≤ 16) (n : Nat) :
    numeral? base (Nat.toDigits base n) = some n := by
  have hne : (Nat.toDigits base n).isEmpty = false := by simp
  rw [numeral?, hne, digits?_toDigits hpos hbase]
  rfl

theorem mem_toDigits {base : Nat} (hpos : 1 < base) {c : Char} {n : Nat}
    (h : c ∈ Nat.toDigits base n) : ∃ d < base, c = d.digitChar := by
  induction n using Nat.strongRecOn with
  | ind n ih =>
      by_cases hn : n < base
      · rw [Nat.toDigits_of_lt_base hn, List.mem_singleton] at h
        exact ⟨n, hn, h⟩
      · have hle := Nat.le_of_not_lt hn
        rw [Nat.toDigits_of_base_le hpos hle, List.mem_append, List.mem_singleton] at h
        cases h with
        | inl h => exact ih _ (Nat.div_lt_self (by omega) hpos) h
        | inr h => exact ⟨n % base, Nat.mod_lt n (by omega), h⟩

theorem notMem_toDigits {base : Nat} (hpos : 1 < base) (hbase : base ≤ 16) {c : Char}
    (h : digitValue c = none) (n : Nat) : c ∉ Nat.toDigits base n := by
  intro hc
  obtain ⟨d, hd, rfl⟩ := mem_toDigits hpos hc
  have hdigit := digit?_digitChar hbase hd
  rw [digit?, h] at hdigit
  cases hdigit

/-- A port's own text is read back as the port. -/
theorem port?_toString (port : UInt16) : port? (toString port.toNat) = some port := by
  have hplus : ∀ rest, Nat.toDigits 10 port.toNat ≠ '+' :: rest := by
    intro rest heq
    have hdigit := Nat.isDigit_of_mem_toDigits (c := '+') (n := port.toNat)
      (by decide : 0 < 10) (by decide) (by simp [heq])
    contradiction
  have hlt : port.toNat < 65536 := port.toNat_lt
  have hread : numeral? 10 (Nat.toDigits 10 port.toNat) = some port.toNat :=
    numeral?_toDigits (by decide) (by decide) _
  have hword : wordNumeral? 65536 (Nat.toDigits 10 port.toNat) = some port.toNat := by
    unfold wordNumeral?
    split
    · rename_i rest heq
      exact absurd heq (hplus rest)
    · simp only [hread, Option.filter_some, hlt, decide_true, if_true]
  rw [port?, Nat.toString_eq_repr, Nat.toList_repr, hword, Option.map_some, UInt16.ofNat_toNat]

end Egress.Text
