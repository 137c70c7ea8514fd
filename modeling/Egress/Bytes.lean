/-!
Numbers written in a fixed number of bytes. `toBigEndian` and `bigEndian` are inverse to each other
on numbers that fit and on byte lists of the right length; the little-endian forms are their
reversals.
-/

namespace Egress.Bytes

/-- The weight of a byte that has so many bytes after it. -/
def place : Nat → Nat
  | 0 => 1
  | after + 1 => place after * 256

/-- The number a list of bytes spells, most significant byte first. -/
def bigEndian : List UInt8 → Nat
  | [] => 0
  | b :: rest => b.toNat * place rest.length + bigEndian rest

/-- The last `width` base-256 digits of a number, most significant first. -/
def toBigEndian : (width : Nat) → Nat → List UInt8
  | 0, _ => []
  | width + 1, n => UInt8.ofNat (n / place width) :: toBigEndian width n

def littleEndian (bytes : List UInt8) : Nat := bigEndian bytes.reverse

def toLittleEndian (width n : Nat) : List UInt8 := (toBigEndian width n).reverse

@[simp] theorem length_toBigEndian (width n : Nat) : (toBigEndian width n).length = width := by
  induction width with
  | zero => rfl
  | succ w ih => simp [toBigEndian, ih]

theorem place_pos (after : Nat) : 0 < place after := by
  induction after with
  | zero => exact Nat.one_pos
  | succ n ih => exact Nat.mul_pos ih (by omega)

theorem bigEndian_lt (bytes : List UInt8) : bigEndian bytes < place bytes.length := by
  induction bytes with
  | nil => exact Nat.one_pos
  | cons b rest ih =>
      have hb := b.toNat_lt
      simp only [bigEndian, List.length_cons, place]
      calc b.toNat * place rest.length + bigEndian rest
          < b.toNat * place rest.length + place rest.length := by omega
        _ = (b.toNat + 1) * place rest.length := by rw [Nat.add_mul, Nat.one_mul]
        _ ≤ 256 * place rest.length := Nat.mul_le_mul_right _ (by omega)
        _ = place rest.length * 256 := Nat.mul_comm _ _

theorem toBigEndian_add_mul (width n k : Nat) :
    toBigEndian width (k * place width + n) = toBigEndian width n := by
  induction width generalizing k with
  | zero => rfl
  | succ w ih =>
      have hsplit : k * place (w + 1) + n = (k * 256) * place w + n := by
        rw [place, Nat.mul_comm (place w), Nat.mul_assoc]
      simp only [toBigEndian, hsplit, ih]
      congr 1
      rw [Nat.mul_comm, Nat.mul_add_div (place_pos w)]
      apply UInt8.toNat.inj
      simp only [UInt8.toNat_ofNat']
      omega

theorem toBigEndian_bigEndian (bytes : List UInt8) :
    toBigEndian bytes.length (bigEndian bytes) = bytes := by
  induction bytes with
  | nil => rfl
  | cons b rest ih =>
      simp only [List.length_cons, toBigEndian, bigEndian]
      rw [toBigEndian_add_mul, ih, Nat.mul_comm, Nat.mul_add_div (place_pos rest.length),
        Nat.div_eq_of_lt (bigEndian_lt rest)]
      simp

theorem bigEndian_toBigEndian (width n : Nat) :
    bigEndian (toBigEndian width n) = n % place width := by
  induction width with
  | zero => simp [toBigEndian, bigEndian, place, Nat.mod_one]
  | succ w ih =>
      simp only [toBigEndian, bigEndian, ih, length_toBigEndian, UInt8.toNat_ofNat', place]
      rw [Nat.mod_mul, Nat.mul_comm (place w), Nat.add_comm]

theorem littleEndian_toLittleEndian (width n : Nat) :
    littleEndian (toLittleEndian width n) = n % place width := by
  rw [littleEndian, toLittleEndian, List.reverse_reverse, bigEndian_toBigEndian]

theorem toLittleEndian_littleEndian (bytes : List UInt8) :
    toLittleEndian bytes.length (littleEndian bytes) = bytes := by
  rw [toLittleEndian, littleEndian, ← List.length_reverse, toBigEndian_bigEndian,
    List.reverse_reverse]

theorem littleEndian_lt (bytes : List UInt8) : littleEndian bytes < place bytes.length := by
  rw [littleEndian, ← List.length_reverse]
  exact bigEndian_lt bytes.reverse

/-! Words of two bytes in network order and of four bytes in host order. -/

theorem ofNat_toBigEndian (n : UInt16) : UInt16.ofNat (bigEndian (toBigEndian 2 n.toNat)) = n := by
  have hlt : n.toNat < place 2 := n.toNat_lt
  rw [bigEndian_toBigEndian, Nat.mod_eq_of_lt hlt, UInt16.ofNat_toNat]

theorem toBigEndian_ofNat {bytes : List UInt8} (h : bytes.length = 2) :
    toBigEndian 2 (UInt16.ofNat (bigEndian bytes)).toNat = bytes := by
  have hlt := bigEndian_lt bytes
  rw [h] at hlt
  rw [UInt16.toNat_ofNat_of_lt' hlt, ← h, toBigEndian_bigEndian]

theorem ofNat_toLittleEndian (n : UInt32) :
    UInt32.ofNat (littleEndian (toLittleEndian 4 n.toNat)) = n := by
  have hlt : n.toNat < place 4 := n.toNat_lt
  rw [littleEndian_toLittleEndian, Nat.mod_eq_of_lt hlt, UInt32.ofNat_toNat]

theorem toLittleEndian_ofNat {bytes : List UInt8} (h : bytes.length = 4) :
    toLittleEndian 4 (UInt32.ofNat (littleEndian bytes)).toNat = bytes := by
  have hlt := littleEndian_lt bytes
  rw [h] at hlt
  rw [UInt32.toNat_ofNat_of_lt' hlt, ← h, toLittleEndian_littleEndian]

end Egress.Bytes
