/-!
Text as bytes. `bytes` and `ofBytes?` are the exact encoding and its reading; `ofBytesLossy` reads
any bytes, with one U+FFFD for each maximal ill-formed piece.
-/

namespace Egress.Text

def bytes (s : String) : List UInt8 := s.toUTF8.data.toList

/-- The text these bytes encode, if they are well-formed UTF-8. -/
def ofBytes? (bs : List UInt8) : Option String := String.fromUTF8? ⟨bs.toArray⟩

theorem bytes_injective {s t : String} (h : bytes s = bytes t) : s = t := by
  apply String.toByteArray_inj.1
  apply ByteArray.ext
  exact Array.toList_inj.1 h

theorem bytes_of_ofBytes? {bs : List UInt8} {s : String} (h : ofBytes? bs = some s) :
    bytes s = bs := by
  unfold ofBytes? String.fromUTF8? at h
  split at h
  · cases h; rfl
  · contradiction

/-- A character of several bytes of which some are still to come: the range the next byte has to
lie in, how many follow after it, and the bits collected so far. -/
structure Unfinished where
  low : UInt8
  high : UInt8
  more : Nat
  bits : Nat
deriving Repr, DecidableEq

/-- What a byte at the start of a character begins. -/
inductive Lead
  | whole (c : Char)
  | part (u : Unfinished)
  | stray
deriving Repr, DecidableEq

/-- The narrowed ranges after `E0`, `ED`, `F0` and `F4` keep out overlong forms, surrogates and
numbers above the last code point. -/
def lead (b : UInt8) : Lead :=
  let n := b.toNat
  if n < 0x80 then .whole (Char.ofNat n)
  else if n < 0xc2 then .stray
  else if n < 0xe0 then .part ⟨0x80, 0xbf, 0, n - 0xc0⟩
  else if n = 0xe0 then .part ⟨0xa0, 0xbf, 1, 0⟩
  else if n = 0xed then .part ⟨0x80, 0x9f, 1, n - 0xe0⟩
  else if n < 0xf0 then .part ⟨0x80, 0xbf, 1, n - 0xe0⟩
  else if n = 0xf0 then .part ⟨0x90, 0xbf, 2, 0⟩
  else if n < 0xf4 then .part ⟨0x80, 0xbf, 2, n - 0xf0⟩
  else if n = 0xf4 then .part ⟨0x80, 0x8f, 2, 4⟩
  else .stray

/-- Reads bytes as characters; `none` stands for an ill-formed piece. -/
def characters : Option Unfinished → List UInt8 → List (Option Char)
  | none, [] => []
  | some _, [] => [none]
  | none, b :: bs =>
      match lead b with
      | .whole c => some c :: characters none bs
      | .part u => characters (some u) bs
      | .stray => none :: characters none bs
  | some u, b :: bs =>
      if u.low ≤ b ∧ b ≤ u.high then
        let bits := u.bits * 64 + b.toNat % 64
        match u.more with
        | 0 => some (Char.ofNat bits) :: characters none bs
        | more + 1 => characters (some ⟨0x80, 0xbf, more, bits⟩) bs
      else
        match lead b with
        | .whole c => none :: some c :: characters none bs
        | .part v => none :: characters (some v) bs
        | .stray => none :: none :: characters none bs

def ofBytesLossy (bs : List UInt8) : String :=
  String.ofList ((characters none bs).map (·.getD '\uFFFD'))

end Egress.Text
