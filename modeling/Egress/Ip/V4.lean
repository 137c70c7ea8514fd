import Egress.Bytes
import Egress.Text.Numeral
import Egress.Text.Pieces

/-!
IPv4 addresses: 32 bits, four octets on the wire, dotted decimal text. `read?` takes exactly the
texts that `text` writes: four parts of one to three digits, at most 255, without leading zeros.
-/

namespace Egress

structure Ipv4 where
  bits : BitVec 32
deriving DecidableEq, Repr, Inhabited

namespace Ipv4

def toNat (a : Ipv4) : Nat := a.bits.toNat

def ofNat (n : Nat) : Ipv4 := ⟨BitVec.ofNat 32 n⟩

def octets (a : Ipv4) : List UInt8 := Bytes.toBigEndian 4 a.toNat

def ofOctets (os : List UInt8) : Ipv4 := ofNat (Bytes.bigEndian os)

def of (a b c d : UInt8) : Ipv4 := ofOctets [a, b, c, d]

/-- The leading octet. -/
def block (a : Ipv4) : UInt8 := UInt8.ofNat (a.toNat / 0x1000000)

/-- The address inside its block, the last 24 bits. -/
def hostPart (a : Ipv4) : Nat := a.toNat % 0x1000000

def chars (a : Ipv4) : List Char :=
  Text.join '.' (a.octets.map fun o => Nat.toDigits 10 o.toNat)

def text (a : Ipv4) : String := String.ofList a.chars

def octet? (cs : List Char) : Option UInt8 :=
  if cs.length ≤ 3 ∧ (cs.head? ≠ some '0' ∨ cs.length = 1) then
    ((Text.numeral? 10 cs).filter (· < 256)).map UInt8.ofNat
  else none

def ofChars? (cs : List Char) : Option Ipv4 :=
  match Text.pieces '.' cs with
  | [a, b, c, d] => do return of (← octet? a) (← octet? b) (← octet? c) (← octet? d)
  | _ => none

def read? (s : String) : Option Ipv4 := ofChars? s.toList

/-- Both addresses agree in every bit that the mask sets. -/
def agree (mask a b : Ipv4) : Bool := a.bits &&& mask.bits == b.bits &&& mask.bits

@[simp] theorem toNat_lt (a : Ipv4) : a.toNat < 0x100000000 := a.bits.isLt

@[simp] theorem length_octets (a : Ipv4) : a.octets.length = 4 := Bytes.length_toBigEndian ..

theorem ofNat_toNat (a : Ipv4) : ofNat a.toNat = a := by
  simp [ofNat, toNat]

theorem toNat_ofNat (n : Nat) : (ofNat n).toNat = n % 0x100000000 := by
  simp [ofNat, toNat]

@[simp] theorem ofOctets_octets (a : Ipv4) : ofOctets a.octets = a := by
  have h : a.toNat < Bytes.place 4 := a.toNat_lt
  rw [ofOctets, octets, Bytes.bigEndian_toBigEndian, Nat.mod_eq_of_lt h, ofNat_toNat]

theorem octets_ofOctets {os : List UInt8} (h : os.length = 4) : (ofOctets os).octets = os := by
  have hlt : Bytes.bigEndian os < 0x100000000 := by
    have := Bytes.bigEndian_lt os
    rwa [h] at this
  rw [octets, ofOctets, toNat_ofNat, Nat.mod_eq_of_lt hlt, ← h, Bytes.toBigEndian_bigEndian]

theorem toNat_block (a : Ipv4) : a.block.toNat = a.toNat / 0x1000000 := by
  have := a.toNat_lt
  rw [block, UInt8.toNat_ofNat', Nat.mod_eq_of_lt (by omega)]

theorem ofNat_block_add_hostPart (a : Ipv4) :
    ofNat (a.block.toNat * 0x1000000 + a.hostPart) = a := by
  rw [toNat_block, hostPart, Nat.mul_comm, Nat.div_add_mod, ofNat_toNat]

theorem block_ofNat (b : UInt8) {host : Nat} (h : host < 0x1000000) :
    (ofNat (b.toNat * 0x1000000 + host)).block = b := by
  have := b.toNat_lt
  apply UInt8.toNat.inj
  rw [toNat_block, toNat_ofNat]
  omega

theorem hostPart_ofNat (b : UInt8) {host : Nat} (h : host < 0x1000000) :
    (ofNat (b.toNat * 0x1000000 + host)).hostPart = host := by
  have := b.toNat_lt
  rw [hostPart, toNat_ofNat]
  omega

end Ipv4

end Egress
