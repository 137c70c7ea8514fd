import Egress.Ip.V4

/-!
IPv6 addresses: 128 bits, sixteen octets on the wire, eight hexadecimal groups in text. The text
shortens the first longest run of two or more zero groups to `::` and writes an IPv4-mapped address
with a dotted end; reading takes every spelling of that kind.
-/

namespace Egress

structure Ipv6 where
  bits : BitVec 128
deriving DecidableEq, Repr, Inhabited

namespace Ipv6

def toNat (a : Ipv6) : Nat := a.bits.toNat

def ofNat (n : Nat) : Ipv6 := ⟨BitVec.ofNat 128 n⟩

def octets (a : Ipv6) : List UInt8 := Bytes.toBigEndian 16 a.toNat

def ofOctets (os : List UInt8) : Ipv6 := ofNat (Bytes.bigEndian os)

/-- The number that a list of 16-bit groups spells, first group highest. -/
def ofGroups (gs : List Nat) : Ipv6 := ofNat (gs.foldl (fun n g => n * 65536 + g) 0)

def group (a : Ipv6) (i : Nat) : Nat := (a.bits.extractLsb' (16 * (7 - i)) 16).toNat

def groups (a : Ipv6) : List Nat := (List.range 8).map a.group

/-- The IPv4 address carried by an address in `::ffff:0:0/96`. -/
def mapped? (a : Ipv6) : Option Ipv4 :=
  if a.toNat / 0x100000000 = 0xffff then some (Ipv4.ofNat (a.toNat % 0x100000000)) else none

def ofMapped (a : Ipv4) : Ipv6 := ofNat (0xffff00000000 + a.toNat)

def leadingZeros : List Nat → Nat
  | 0 :: gs => leadingZeros gs + 1
  | _ => 0

/-- Start and length of the first longest run of zero groups. -/
def longestRun : List Nat → Nat × Nat
  | [] => (0, 0)
  | g :: gs =>
      let here := leadingZeros (g :: gs)
      let (start, length) := longestRun gs
      if length ≤ here then (0, here) else (start + 1, length)

def hexGroups (gs : List Nat) : List Char :=
  Text.join ':' (gs.map (Nat.toDigits 16))

def chars (a : Ipv6) : List Char :=
  match a.mapped? with
  | some v4 => "::ffff:".toList ++ v4.chars
  | none =>
      let gs := a.groups
      let (start, length) := longestRun gs
      if 2 ≤ length then
        hexGroups (gs.take start) ++ ':' :: ':' :: hexGroups (gs.drop (start + length))
      else hexGroups gs

def text (a : Ipv6) : String := String.ofList a.chars

def group? (cs : List Char) : Option Nat :=
  if cs.length ≤ 4 then Text.numeral? 16 cs else none

/-- Groups from the pieces between colons. With `dotted` the last piece may be an IPv4 address,
which fills two groups. -/
def groups? (dotted : Bool) : List (List Char) → Option (List Nat)
  | [] => some []
  | [p] =>
      match group? p with
      | some g => some [g]
      | none =>
          if dotted then
            (Ipv4.ofChars? p).map fun a => [a.toNat / 65536, a.toNat % 65536]
          else none
  | p :: q :: rest => do return (← group? p) :: (← groups? dotted (q :: rest))

def splitGap : List Char → Option (List Char × List Char)
  | [] => none
  | ':' :: ':' :: rest => some ([], rest)
  | c :: rest => (splitGap rest).map fun (head, tail) => (c :: head, tail)

/-- Pieces of one side of a gap, of which there are none if the side is empty. -/
def side (cs : List Char) : List (List Char) :=
  if cs.isEmpty then [] else Text.pieces ':' cs

/-- Eight groups, or fewer around one `::` that stands for at least one zero group. A dotted end is
taken only at the end of the text. -/
def ofChars? (cs : List Char) : Option Ipv6 :=
  match splitGap cs with
  | none => do
      let gs ← groups? true (Text.pieces ':' cs)
      if gs.length = 8 then some (ofGroups gs) else none
  | some (head, tail) => do
      let front ← groups? false (side head)
      let back ← groups? true (side tail)
      let gap := 8 - front.length - back.length
      if gap = 0 then none else some (ofGroups (front ++ List.replicate gap 0 ++ back))

def read? (s : String) : Option Ipv6 := ofChars? s.toList

/-- All bits but the last `count`. A shift by the whole width of the word overflows. -/
def mask? (count : Nat) : Option (BitVec 128) :=
  if count < 128 then some (BitVec.allOnes 128 <<< count) else none

/-- Whether both addresses agree in their first `length` bits, unless making the mask overflows.
Lengths above 128 count as 128; no bits need no mask. -/
def agree? (length : Nat) (a b : Ipv6) : Option Bool :=
  let count := min length 128
  if count = 0 then some true
  else (mask? (128 - count)).map fun mask => a.bits &&& mask == b.bits &&& mask

def agree (length : Nat) (a b : Ipv6) : Bool := agree? length a b == some true

@[simp] theorem toNat_lt (a : Ipv6) : a.toNat < 0x100000000000000000000000000000000 := a.bits.isLt

@[simp] theorem length_octets (a : Ipv6) : a.octets.length = 16 := Bytes.length_toBigEndian ..

theorem ofNat_toNat (a : Ipv6) : ofNat a.toNat = a := by
  simp [ofNat, toNat]

theorem toNat_ofNat (n : Nat) : (ofNat n).toNat = n % 0x100000000000000000000000000000000 := by
  simp [ofNat, toNat]

@[simp] theorem ofOctets_octets (a : Ipv6) : ofOctets a.octets = a := by
  have h : a.toNat < Bytes.place 16 := a.toNat_lt
  rw [ofOctets, octets, Bytes.bigEndian_toBigEndian, Nat.mod_eq_of_lt h, ofNat_toNat]

theorem octets_ofOctets {os : List UInt8} (h : os.length = 16) : (ofOctets os).octets = os := by
  have hlt : Bytes.bigEndian os < 0x100000000000000000000000000000000 := by
    have := Bytes.bigEndian_lt os
    rwa [h] at this
  rw [octets, ofOctets, toNat_ofNat, Nat.mod_eq_of_lt hlt, ← h, Bytes.toBigEndian_bigEndian]

@[simp] theorem mapped?_ofMapped (a : Ipv4) : (ofMapped a).mapped? = some a := by
  have h := a.toNat_lt
  have hall : (ofMapped a).toNat = 0xffff00000000 + a.toNat := by
    rw [ofMapped, toNat_ofNat]
    omega
  have hhigh : (ofMapped a).toNat / 0x100000000 = 0xffff := by omega
  have hlow : (ofMapped a).toNat % 0x100000000 = a.toNat := by omega
  rw [mapped?, if_pos hhigh, hlow, Ipv4.ofNat_toNat]

end Ipv6

end Egress
