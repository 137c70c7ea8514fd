import Egress.Ip.Addr
import Egress.Text.Character

/-!
Hosts written as numbers. Besides IPv6 text, the classic IPv4 forms count: one to four parts, each
decimal, octal after a leading `0`, or hexadecimal after `0x`, where the last part fills the bits
the leading ones leave. Text from the first ASCII blank on is ignored.
-/

namespace Egress.NumericHost

/-- One part of a classic IPv4 numeral, below 2^32. -/
def part? (cs : List Char) : Option Nat :=
  let value :=
    match cs with
    | '0' :: 'x' :: digits => Text.numeral? 16 digits
    | '0' :: 'X' :: digits => Text.numeral? 16 digits
    | '0' :: c :: digits => Text.numeral? 8 (c :: digits)
    | _ => Text.numeral? 10 cs
  value.filter (· < 0x100000000)

/-- The number that one to four parts spell: every part but the last is one octet. `place` is the
weight of the first part's unit if it is an octet. -/
def value? (place : Nat) : List Nat → Option Nat
  | [] => none
  | [last] => if last < 256 * place then some last else none
  | p :: q :: rest =>
      if p < 256 then (value? (place / 256) (q :: rest)).map (p * place + ·) else none

def ipv4? (cs : List Char) : Option Ipv4 := do
  let fields := Text.pieces '.' (cs.takeWhile (! Text.isAsciiBlank ·))
  if 4 < fields.length then none
  else
    let parts ← fields.mapM part?
    (value? 0x1000000 parts).map Ipv4.ofNat

def read? (s : String) : Option IpAddr :=
  match Ipv6.read? s with
  | some a => some (.v6 a)
  | none => (ipv4? s.toList).map .v4

/-- The digits of an octet are one part, free of dots and blanks. -/
theorem part?_digits {n : Nat} (h : n < 256) : part? (Nat.toDigits 10 n) = some n ∧
    ∀ c ∈ Nat.toDigits 10 n, c ≠ '.' ∧ Text.isAsciiBlank c = false := by
  have hall : (List.range 256).all (fun n => part? (Nat.toDigits 10 n) == some n &&
      (Nat.toDigits 10 n).all fun c => c != '.' && !Text.isAsciiBlank c) = true := by
    decide +kernel
  simpa using List.all_eq_true.1 hall n (List.mem_range.2 h)

theorem value?_octets (a b c d : UInt8) :
    value? 0x1000000 [a.toNat, b.toNat, c.toNat, d.toNat] = some (Bytes.bigEndian [a, b, c, d]) := by
  have ha := a.toNat_lt
  have hb := b.toNat_lt
  have hc := c.toNat_lt
  have hd := d.toNat_lt
  simp only [value?, Bytes.bigEndian, Bytes.place, List.length_cons, List.length_nil]
  grind

/-- The classic reading of an address's own text is the address. -/
theorem ipv4?_chars (a : Ipv4) : ipv4? a.chars = some a := by
  obtain ⟨o₁, o₂, o₃, o₄, ho⟩ : ∃ o₁ o₂ o₃ o₄, a.octets = [o₁, o₂, o₃, o₄] := ⟨_, _, _, _, rfl⟩
  have hpart (o : UInt8) := part?_digits o.toNat_lt
  have hdot : Text.isAsciiBlank '.' = false := by decide
  have hblank : ∀ c ∈ a.chars, (! Text.isAsciiBlank c) = true := by
    intro c hc
    simp only [Ipv4.chars, ho, List.map_cons, List.map_nil, Text.join, List.mem_append,
      List.mem_cons] at hc
    grind
  have hall : a.chars.takeWhile (! Text.isAsciiBlank ·) = a.chars := by
    have happend : (a.chars ++ []).takeWhile (! Text.isAsciiBlank ·) =
        a.chars ++ [].takeWhile (! Text.isAsciiBlank ·) := List.takeWhile_append_of_pos hblank
    simpa only [List.append_nil, List.takeWhile_nil] using happend
  have hfields : Text.pieces '.' a.chars = a.octets.map fun o => Nat.toDigits 10 o.toNat := by
    refine Text.pieces_join (by simp [ho]) fun p hp hmem => ?_
    obtain ⟨o, -, rfl⟩ := List.mem_map.1 hp
    exact ((hpart o).2 '.' hmem).1 rfl
  have hparts : a.octets.mapM (fun o => part? (Nat.toDigits 10 o.toNat)) =
      some [o₁.toNat, o₂.toNat, o₃.toNat, o₄.toNat] := by
    simp [ho, (hpart _).1]
  have hback : Ipv4.ofNat (Bytes.bigEndian [o₁, o₂, o₃, o₄]) = a := by
    rw [← ho]
    exact Ipv4.ofOctets_octets a
  have hlength : ¬4 < (a.octets.map fun o => Nat.toDigits 10 o.toNat).length := by simp
  simp only [ipv4?, hall, hfields, if_neg hlength, List.mapM_map, Function.comp_def]
  simp only [hparts, Option.bind_eq_bind, Option.bind_some, value?_octets, Option.map_some, hback]

theorem isSome_read?_text (a : Ipv4) : (read? a.text).isSome := by
  unfold read?
  split
  · rfl
  · rw [Ipv4.text, String.toList_ofList, ipv4?_chars]
    rfl

end Egress.NumericHost
