import Egress.RouteError
import Egress.SocketAddr.Raw

/-!
Socket addresses in memory are read and written without loss. What is written is read back as it
was, and what is read is written back byte for byte, except that the padding behind an IPv4 address
is cleared. Everything else is refused with the number of its family.
-/

namespace Egress

namespace SocketAddr

theorem toLittleEndian_family (s : Storage) : Bytes.toLittleEndian 2 (family s) = s.field 0 2 := by
  have hlength : (s.field 0 2).length = 2 := s.length_field (by decide)
  have hback := Bytes.toLittleEndian_littleEndian (s.field 0 2)
  rwa [hlength] at hback

/-- How an IPv4 address is read, and that writing it gives its bytes and clear padding. -/
theorem decode_of_inet {s : Storage} {length : Nat} (hfamily : family s = inet)
    (h : 16 ≤ length) : ∃ a, decode s length = .ok (.v4 a) ∧
      encode (.v4 a) = s.field 0 8 ++ List.replicate 8 0 := by
  have hport : (s.field 2 2).length = 2 := s.length_field (by decide)
  have hip : (s.field 4 4).length = 4 := s.length_field (by decide)
  refine ⟨_, by rw [decode, if_pos ⟨hfamily, h⟩], ?_⟩
  rw [encode, ← hfamily, toLittleEndian_family, Bytes.toBigEndian_ofNat hport,
    Ipv4.octets_ofOctets hip, s.field_append 0 2 2, s.field_append 0 4 4]

/-- How an IPv6 address is read, and that writing it gives its bytes. -/
theorem decode_of_inet6 {s : Storage} {length : Nat} (hfamily : family s = inet6)
    (h : 28 ≤ length) : ∃ a, decode s length = .ok (.v6 a) ∧ encode (.v6 a) = s.field 0 28 := by
  have hport : (s.field 2 2).length = 2 := s.length_field (by decide)
  have hflow : (s.field 4 4).length = 4 := s.length_field (by decide)
  have hip : (s.field 8 16).length = 16 := s.length_field (by decide)
  have hscope : (s.field 24 4).length = 4 := s.length_field (by decide)
  have hinet : ¬(family s = inet ∧ 16 ≤ length) := by
    rw [hfamily]
    exact fun hin => absurd hin.1 (by decide)
  refine ⟨_, by rw [decode, if_neg hinet, if_pos ⟨hfamily, h⟩], ?_⟩
  rw [encode, ← hfamily, toLittleEndian_family, Bytes.toBigEndian_ofNat hport,
    Bytes.toLittleEndian_ofNat hflow, Ipv6.octets_ofOctets hip, Bytes.toLittleEndian_ofNat hscope,
    s.field_append 0 2 2, s.field_append 0 4 4, s.field_append 0 8 16, s.field_append 0 24 4]

theorem decode_of_foreign {s : Storage} {length : Nat} (hinet : ¬(family s = inet ∧ 16 ≤ length))
    (hinet6 : ¬(family s = inet6 ∧ 28 ≤ length)) : decode s length = .error (family s) := by
  rw [decode, if_neg hinet, if_neg hinet6]

theorem encode_injective {a b : SocketAddr} (h : encode a = encode b) : a = b := by
  have hread (c : SocketAddr) : decode (.ofBytes (encode c)) (encode c).length = .ok c :=
    decode_of_startsWith (startsWith_encode (List.prefix_refl (encode c))) (Nat.le_refl _)
  have ha := hread a
  rw [h, hread b] at ha
  exact (Except.ok.inj ha).symm

namespace Storage

/-- The bytes of this address stand at the front, whatever stands in the padding behind an IPv4
address. -/
def Holds (s : Storage) : SocketAddr → Prop
  | v4 a => s.field 0 8 = (encode (v4 a)).take 8
  | v6 a => s.field 0 28 = encode (v6 a)

theorem StartsWith.holds {s : Storage} {a : SocketAddr} (h : s.StartsWith (encode a)) :
    s.Holds a := by
  cases a with
  | v4 a =>
      have hroom : 0 + 8 ≤ (encode (v4 a)).length := by
        rw [length_encode]
        exact (by decide : 0 + 8 ≤ 16)
      exact h.field hroom
  | v6 a => exact h

/-- The family that stands at the front of a longer field. -/
theorem family_of_field {s : Storage} {length : Nat} (h : 2 ≤ length) {bytes : List UInt8}
    (hfield : s.field 0 length = bytes) : family s = Bytes.littleEndian (bytes.take 2) := by
  rw [← hfield, family, field, field, List.take_take, Nat.min_eq_left h]

theorem family_of_holds_v4 {s : Storage} {a : SocketAddr4} (h : s.Holds (v4 a)) :
    family s = inet := by
  rw [family_of_field (by decide) h]
  rfl

theorem family_of_holds_v6 {s : Storage} {a : SocketAddr6} (h : s.Holds (v6 a)) :
    family s = inet6 := by
  rw [family_of_field (by decide) h]
  rfl

end Storage

/-- An address is read from where it is held and from nowhere else. -/
theorem decode_eq_ok_iff {s : Storage} {length : Nat} {a : SocketAddr} :
    decode s length = .ok a ↔ s.Holds a ∧ (encode a).length ≤ length := by
  have hlength (a : SocketAddr) := length_encode a
  constructor
  · intro h
    by_cases hinet : family s = inet ∧ 16 ≤ length
    · obtain ⟨b, hdecode, hencode⟩ := decode_of_inet hinet.1 hinet.2
      obtain rfl := Except.ok.inj (h.symm.trans hdecode)
      refine ⟨?_, by rw [hlength]; exact hinet.2⟩
      rw [Storage.Holds, hencode, List.take_left' (s.length_field (by decide))]
    · by_cases hinet6 : family s = inet6 ∧ 28 ≤ length
      · obtain ⟨b, hdecode, hencode⟩ := decode_of_inet6 hinet6.1 hinet6.2
        obtain rfl := Except.ok.inj (h.symm.trans hdecode)
        exact ⟨hencode.symm, by rw [hlength]; exact hinet6.2⟩
      · rw [decode_of_foreign hinet hinet6] at h
        cases h
  · rintro ⟨hholds, hroom⟩
    rw [hlength] at hroom
    cases a with
    | v4 a =>
        obtain ⟨b, hdecode, hencode⟩ :=
          decode_of_inet (Storage.family_of_holds_v4 hholds) hroom
        have hsame : encode (v4 b) = encode (v4 a) := by
          rw [hencode, hholds]
          rfl
        rw [hdecode, encode_injective hsame]
    | v6 a =>
        obtain ⟨b, hdecode, hencode⟩ :=
          decode_of_inet6 (Storage.family_of_holds_v6 hholds) hroom
        have hsame : encode (v6 b) = encode (v6 a) := hencode.trans hholds
        rw [hdecode, encode_injective hsame]

theorem decode?_of_holds {s : Storage} {a : SocketAddr} (h : s.Holds a) {length : Nat}
    (hlength : (encode a).length ≤ length) : decode? (some s) length = .ok a :=
  decode_eq_ok_iff.2 ⟨h, hlength⟩

theorem family_ofBytes {bytes : List UInt8} (h : 2 ≤ bytes.length) :
    family (.ofBytes bytes) = Bytes.littleEndian (bytes.take 2) := by
  rw [family, Storage.field_ofBytes (by decide) h, List.drop_zero]

/-- Memory that starts with a written address, and of which at least that much is in use, is read as
this address. Of any other memory, as long as a family can be found in it and it is as large as the
caller says, an address is read in the two families of enough bytes and in no other case, and
writing it gives what stood there. -/
theorem decode?_lossless :
    let read := fun (memory : Option (List UInt8)) length =>
      (decode? (memory.map .ofBytes) length).mapError RouteError.invalidEndpoint
    (∀ (a : SocketAddr) (bytes : List UInt8) (length : Nat), encode a <+: bytes →
      (encode a).length ≤ length → read (some bytes) length = .ok a) ∧
    (∀ length, read none length = .error (.invalidEndpoint (-1))) ∧
    ∀ (bytes : List UInt8) (length : Nat), 2 ≤ bytes.length → length ≤ bytes.length →
      let family := Bytes.littleEndian (bytes.take 2)
      (family = 2 ∧ 16 ≤ length → ∃ a, read (some bytes) length = .ok (.v4 a) ∧
        encode (.v4 a) = bytes.take 8 ++ List.replicate 8 0) ∧
      (family = 10 ∧ 28 ≤ length → ∃ a, read (some bytes) length = .ok (.v6 a) ∧
        encode (.v6 a) = bytes.take 28) ∧
      (¬(family = 2 ∧ 16 ≤ length) ∧ ¬(family = 10 ∧ 28 ≤ length) →
        read (some bytes) length = .error (.invalidEndpoint family)) := by
  intro read
  have hread (bytes : List UInt8) (length : Nat) : read (some bytes) length =
    (decode (.ofBytes bytes) length).mapError RouteError.invalidEndpoint := rfl
  refine ⟨?_, fun length => rfl, ?_⟩
  · intro a bytes length hfront hlength
    rw [hread, decode_of_startsWith (startsWith_encode hfront) hlength]
    rfl
  · intro bytes length hfamily hinside family
    have hsame : SocketAddr.family (.ofBytes bytes) = family := family_ofBytes hfamily
    refine ⟨?_, ?_, ?_⟩
    · rintro ⟨hinet, hlength⟩
      obtain ⟨a, hdecode, hencode⟩ := decode_of_inet (hsame.trans hinet) hlength
      rw [Storage.field_ofBytes (by decide) (by omega), List.drop_zero] at hencode
      refine ⟨a, ?_, hencode⟩
      rw [hread, hdecode]
      rfl
    · rintro ⟨hinet6, hlength⟩
      obtain ⟨a, hdecode, hencode⟩ := decode_of_inet6 (hsame.trans hinet6) hlength
      rw [Storage.field_ofBytes (by decide) (by omega), List.drop_zero] at hencode
      refine ⟨a, ?_, hencode⟩
      rw [hread, hdecode]
      rfl
    · rintro ⟨hinet, hinet6⟩
      rw [← hsame] at hinet hinet6 ⊢
      rw [hread, decode_of_foreign hinet hinet6]
      rfl

end SocketAddr

end Egress
