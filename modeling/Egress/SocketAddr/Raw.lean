import Egress.SocketAddr.Basic

/-!
Socket addresses in memory: a family number, the port and the address in network order, and for
IPv6 the flow information before and the scope after the address in host order, least significant
byte first. `decode` reads a 128-byte storage of which a given number of bytes are in use.
-/

namespace Egress.SocketAddr

abbrev Storage := Vector UInt8 128

namespace Storage

/-- A storage that starts with these bytes and is zero elsewhere. -/
def ofBytes (bytes : List UInt8) : Storage := Vector.ofFn fun i => bytes.getD i.val 0

def field (s : Storage) (start length : Nat) : List UInt8 :=
  (s.toList.drop start).take length

end Storage

def inet : Nat := 2

def inet6 : Nat := 10

/-- The bytes of an address in memory; their number is its length. -/
def encode : SocketAddr → List UInt8
  | v4 a =>
      Bytes.toLittleEndian 2 inet ++ Bytes.toBigEndian 2 a.port.toNat ++ a.ip.octets ++
        List.replicate 8 0
  | v6 a =>
      Bytes.toLittleEndian 2 inet6 ++ Bytes.toBigEndian 2 a.port.toNat ++
        Bytes.toLittleEndian 4 a.flow.toNat ++ a.ip.octets ++
        Bytes.toLittleEndian 4 a.scope.toNat

def family (s : Storage) : Nat := Bytes.littleEndian (s.field 0 2)

/-- The address in a storage, or its family number if that is not a family of enough bytes. -/
def decode (s : Storage) (length : Nat) : Except Int SocketAddr :=
  let port := UInt16.ofNat (Bytes.bigEndian (s.field 2 2))
  if family s = inet ∧ 16 ≤ length then
    .ok (.v4 ⟨Ipv4.ofOctets (s.field 4 4), port⟩)
  else if family s = inet6 ∧ 28 ≤ length then
    .ok (.v6 {
      ip := Ipv6.ofOctets (s.field 8 16)
      port
      flow := UInt32.ofNat (Bytes.littleEndian (s.field 4 4))
      scope := UInt32.ofNat (Bytes.littleEndian (s.field 24 4)) })
  else .error (family s)

/-- As `decode`, for a storage that may be missing; that counts as family -1. -/
def decode? (s : Option Storage) (length : Nat) : Except Int SocketAddr :=
  match s with
  | some s => decode s length
  | none => .error (-1)

/-- The number a program finds where a storage has its IPv4 address. -/
def Storage.inetNumber (s : Storage) : UInt32 := UInt32.ofNat (Bytes.littleEndian (s.field 4 4))

/-- The address such a number stands for, whose octets are its bytes in memory. -/
def ofInetNumber (n : UInt32) : Ipv4 := .ofOctets (Bytes.toLittleEndian 4 n.toNat)

theorem length_encode (a : SocketAddr) :
    (encode a).length = match a with | v4 _ => 16 | v6 _ => 28 := by
  cases a <;> simp [encode, Bytes.toLittleEndian]

namespace Storage

theorem length_field (s : Storage) {start length : Nat} (h : start + length ≤ 128) :
    (s.field start length).length = length := by
  simp only [field, List.length_take, List.length_drop, Vector.length_toList]
  omega

/-- Fields side by side are one field. -/
theorem field_append (s : Storage) (start m n : Nat) :
    s.field start m ++ s.field (start + m) n = s.field start (m + n) := by
  rw [field, field, field, List.take_add, List.drop_drop]

theorem field_ofBytes {bytes : List UInt8} {start length : Nat} (hroom : start + length ≤ 128)
    (h : start + length ≤ bytes.length) :
    (ofBytes bytes).field start length = (bytes.drop start).take length := by
  apply List.ext_getElem
  · rw [length_field _ hroom, List.length_take, List.length_drop]
    omega
  · intro i hi _
    rw [length_field _ hroom] at hi
    have hlt : start + i < bytes.length := by omega
    simp [field, ofBytes, hlt]

/-- The storage starts with these bytes. -/
def StartsWith (s : Storage) (bytes : List UInt8) : Prop := s.field 0 bytes.length = bytes

theorem startsWith_ofBytes {bytes front : List UInt8} (h : front <+: bytes)
    (hroom : front.length ≤ 128) : (ofBytes bytes).StartsWith front := by
  rw [StartsWith, field_ofBytes (by omega) (by have := h.length_le; omega), List.drop_zero]
  exact (List.prefix_iff_eq_take.1 h).symm

theorem StartsWith.field {s : Storage} {bytes : List UInt8} (hs : s.StartsWith bytes)
    {start length : Nat} (h : start + length ≤ bytes.length) :
    s.field start length = (bytes.drop start).take length := by
  have hfront : s.toList.take bytes.length = bytes := hs
  calc s.field start length
      = ((s.toList.take bytes.length).drop start).take length := by
        rw [Storage.field, List.drop_take, List.take_take, Nat.min_eq_left (by omega)]
    _ = (bytes.drop start).take length := by rw [hfront]

/-- The fields of a stored IPv4 address. -/
theorem StartsWith.fields_v4 {s : Storage} {a : SocketAddr4} (hs : s.StartsWith (encode (.v4 a))) :
    s.field 0 2 = Bytes.toLittleEndian 2 inet ∧ s.field 2 2 = Bytes.toBigEndian 2 a.port.toNat ∧
      s.field 4 4 = a.ip.octets := by
  have hlength := length_encode (.v4 a)
  simp only at hlength
  refine ⟨?_, ?_, ?_⟩
  · rw [hs.field (by omega)]
    rfl
  · rw [hs.field (by omega)]
    rfl
  · rw [hs.field (by omega)]
    rfl

/-- The fields of a stored IPv6 address. -/
theorem StartsWith.fields_v6 {s : Storage} {a : SocketAddr6} (hs : s.StartsWith (encode (.v6 a))) :
    s.field 0 2 = Bytes.toLittleEndian 2 inet6 ∧ s.field 2 2 = Bytes.toBigEndian 2 a.port.toNat ∧
      s.field 4 4 = Bytes.toLittleEndian 4 a.flow.toNat ∧ s.field 8 16 = a.ip.octets ∧
      s.field 24 4 = Bytes.toLittleEndian 4 a.scope.toNat := by
  have hlength := length_encode (.v6 a)
  simp only at hlength
  refine ⟨?_, ?_, ?_, ?_, ?_⟩
  · rw [hs.field (by omega)]
    rfl
  · rw [hs.field (by omega)]
    rfl
  · rw [hs.field (by omega)]
    rfl
  · rw [hs.field (by omega)]
    rfl
  · rw [hs.field (by omega)]
    rfl

end Storage

theorem startsWith_encode {a : SocketAddr} {bytes : List UInt8} (h : encode a <+: bytes) :
    (Storage.ofBytes bytes).StartsWith (encode a) := by
  refine Storage.startsWith_ofBytes h ?_
  rw [length_encode]
  split <;> decide

/-- An address is read back from where it is stored, whatever stands behind it. -/
theorem decode_of_startsWith {s : Storage} {a : SocketAddr} (hs : s.StartsWith (encode a))
    {length : Nat} (h : (encode a).length ≤ length) : decode s length = .ok a := by
  rw [length_encode] at h
  cases a with
  | v4 a =>
      obtain ⟨hfamily, hport, hip⟩ := hs.fields_v4
      have hinet : family s = inet := by
        rw [family, hfamily]
        rfl
      rw [decode, if_pos ⟨hinet, h⟩, hport, hip, Ipv4.ofOctets_octets, Bytes.ofNat_toBigEndian]
  | v6 a =>
      obtain ⟨hfamily, hport, hflow, hip, hscope⟩ := hs.fields_v6
      have hinet6 : family s = inet6 := by
        rw [family, hfamily]
        rfl
      have hinet : ¬(family s = inet ∧ 16 ≤ length) := by
        rw [hinet6]
        exact fun hin => absurd hin.1 (by decide)
      rw [decode, if_neg hinet, if_pos ⟨hinet6, h⟩, hport, hflow, hip, hscope,
        Ipv6.ofOctets_octets, Bytes.ofNat_toBigEndian, Bytes.ofNat_toLittleEndian,
        Bytes.ofNat_toLittleEndian]

/-- An address is found again under the number that stands in memory for it. -/
theorem ofInetNumber_inetNumber (a : SocketAddr4) :
    ofInetNumber (Storage.ofBytes (encode (.v4 a))).inetNumber = a.ip := by
  have hstored := startsWith_encode (List.prefix_refl (encode (.v4 a)))
  rw [Storage.inetNumber, hstored.fields_v4.2.2, ofInetNumber,
    Bytes.toLittleEndian_ofNat a.ip.length_octets, Ipv4.ofOctets_octets]

end Egress.SocketAddr
