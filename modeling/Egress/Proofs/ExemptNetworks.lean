import Egress.Exemption
import Mathlib.Data.List.Forall2

/-!
Exempt networks, bit by bit. A rule holds of an address if both have the same bit wherever the rule
looks: at every bit of its mask for IPv4, in the leading bits for IPv6. The other bits of its
network do not matter, and the masks that are shifted into place never overflow.
-/

namespace Egress

namespace Ipv4

/-- Addresses agree under a mask if they do at each of its bits. -/
theorem agree_iff {mask a b : Ipv4} : agree mask a b = true ↔
    ∀ i, mask.bits.getLsbD i = true → a.bits.getLsbD i = b.bits.getLsbD i := by
  rw [agree, beq_iff_eq]
  constructor
  · intro h i hi
    have hbit := congrArg (BitVec.getLsbD · i) h
    simpa only [BitVec.getLsbD_and, hi, Bool.and_true] using hbit
  · intro h
    refine BitVec.eq_of_getLsbD_eq fun i _ => ?_
    rw [BitVec.getLsbD_and, BitVec.getLsbD_and]
    cases hi : mask.bits.getLsbD i with
    | false => rw [Bool.and_false, Bool.and_false]
    | true => rw [h i hi]

end Ipv4

namespace Ipv6

/-- A mask that keeps at least one bit can be made, and covers the leading bits. -/
theorem mask?_leading {count : Nat} (hpos : 0 < count) (hle : count ≤ 128) :
    ∃ mask, mask? (128 - count) = some mask ∧ ∀ i, mask.getMsbD i = decide (i < count) := by
  refine ⟨BitVec.allOnes 128 <<< (128 - count), if_pos (by omega), fun i => ?_⟩
  rw [BitVec.getMsbD_shiftLeft, BitVec.getMsbD_allOnes, decide_eq_decide]
  omega

/-- Two words are the same under a mask of leading bits if these are. -/
theorem and_eq_and_iff {mask a b : BitVec 128} {count : Nat}
    (hmask : ∀ i, mask.getMsbD i = decide (i < count)) :
    a &&& mask = b &&& mask ↔ ∀ i < count, a.getMsbD i = b.getMsbD i := by
  constructor
  · intro h i hi
    have hbit := congrArg (BitVec.getMsbD · i) h
    simpa only [BitVec.getMsbD_and, hmask, decide_eq_true hi, Bool.and_true] using hbit
  · intro h
    refine BitVec.eq_of_getMsbD_eq fun i _ => ?_
    rw [BitVec.getMsbD_and, BitVec.getMsbD_and, hmask]
    by_cases hi : i < count
    · rw [h i hi]
    · rw [decide_eq_false hi, Bool.and_false, Bool.and_false]

/-- There always is an answer: the mask is not made where it would overflow. -/
theorem agree?_eq (length : Nat) (a b : Ipv6) :
    agree? length a b =
      some (decide (∀ i < min length 128, a.bits.getMsbD i = b.bits.getMsbD i)) := by
  have hle : min length 128 ≤ 128 := Nat.min_le_right length 128
  by_cases hzero : min length 128 = 0
  · simp [agree?, hzero]
  · obtain ⟨mask, hsome, hmask⟩ := mask?_leading (Nat.pos_of_ne_zero hzero) hle
    simp only [agree?, if_neg hzero, hsome, Option.map_some, Option.some.injEq]
    rw [Bool.eq_iff_iff, beq_iff_eq, decide_eq_true_iff, and_eq_and_iff hmask]

theorem agree_iff {length : Nat} {a b : Ipv6} : agree length a b = true ↔
    ∀ i < min length 128, a.bits.getMsbD i = b.bits.getMsbD i := by
  rw [agree, agree?_eq, beq_iff_eq, Option.some.injEq, decide_eq_true_iff]

end Ipv6

namespace Ipv4Exemption

/-- The address and the network have the same bit wherever the mask has one. -/
def Contains (r : Ipv4Exemption) (a : Ipv4) : Prop :=
  ∀ i, r.mask.bits.getLsbD i = true → a.bits.getLsbD i = r.network.bits.getLsbD i

/-- The rules differ in bits of their networks at most, where the mask has none. -/
structure SameInside (r q : Ipv4Exemption) : Prop where
  mask : r.mask = q.mask
  port : r.port = q.port
  network : r.Contains q.network

theorem covers_iff {r : Ipv4Exemption} {a : Ipv4} {port : UInt16} :
    r.covers a port = true ↔ (r.port = 0 ∨ r.port = port) ∧ r.Contains a := by
  rw [covers, Bool.and_eq_true, Ipv4.agree_iff, Bool.or_eq_true, beq_iff_eq, beq_iff_eq, and_comm]
  rfl

theorem SameInside.contains_iff {r q : Ipv4Exemption} (h : r.SameInside q) (a : Ipv4) :
    r.Contains a ↔ q.Contains a := by
  constructor
  · intro hr i hi
    have hi' : r.mask.bits.getLsbD i = true := h.mask ▸ hi
    rw [hr i hi', h.network i hi']
  · intro hq i hi
    rw [hq i (h.mask ▸ hi), h.network i hi]

end Ipv4Exemption

namespace Ipv6Exemption

/-- The address and the network have the same leading bits, as many as the rule looks at. -/
def Contains (r : Ipv6Exemption) (a : Ipv6) : Prop :=
  ∀ i < min r.length.toNat 128, a.bits.getMsbD i = r.network.bits.getMsbD i

/-- The rules differ in bits of their networks at most, behind the leading ones. -/
structure SameInside (r q : Ipv6Exemption) : Prop where
  length : r.length = q.length
  network : r.Contains q.network

theorem covers_iff {r : Ipv6Exemption} {a : Ipv6} : r.covers a = true ↔ r.Contains a :=
  Ipv6.agree_iff

theorem SameInside.contains_iff {r q : Ipv6Exemption} (h : r.SameInside q) (a : Ipv6) :
    r.Contains a ↔ q.Contains a := by
  constructor
  · intro hr i hi
    have hi' : i < min r.length.toNat 128 := h.length ▸ hi
    rw [hr i hi', h.network i hi']
  · intro hq i hi
    rw [hq i (h.length ▸ hi), h.network i hi]

end Ipv6Exemption

namespace Exemptions

/-- Rule by rule the tables differ in bits of their networks at most that the rules do not look
at. -/
structure SameInside (x y : Exemptions) : Prop where
  ipv4 : List.Forall₂ Ipv4Exemption.SameInside x.ipv4 y.ipv4
  ipv6 : List.Forall₂ Ipv6Exemption.SameInside x.ipv6 y.ipv6
  allIpv6 : x.allIpv6 = y.allIpv6

theorem any_congr {α : Type} {R : α → α → Prop} {p : α → Bool}
    (hp : ∀ r q, R r q → p r = p q) {rs qs : List α} (h : List.Forall₂ R rs qs) :
    rs.any p = qs.any p := by
  induction h with
  | nil => rfl
  | cons hhead _ ih => rw [List.any_cons, List.any_cons, hp _ _ hhead, ih]

theorem SameInside.coversEndpoint {x y : Exemptions} (h : x.SameInside y) (e : Endpoint) :
    x.coversEndpoint e = y.coversEndpoint e := by
  unfold Exemptions.coversEndpoint
  cases e.ip with
  | v4 a =>
      refine any_congr (fun r q hrq => ?_) h.ipv4
      rw [Bool.eq_iff_iff, Ipv4Exemption.covers_iff, Ipv4Exemption.covers_iff, hrq.port,
        hrq.contains_iff]
  | v6 a =>
      rw [h.allIpv6]
      refine congrArg (y.allIpv6 || ·) (any_congr (fun r q hrq => ?_) h.ipv6)
      rw [Bool.eq_iff_iff, Ipv6Exemption.covers_iff, Ipv6Exemption.covers_iff, hrq.contains_iff]

/-- An IPv4 destination is exempt if a rule for its port has the same bit as the address wherever
its mask has one, an IPv6 destination if all are or a rule has the same leading bits. Nothing else
of the rules matters, and no mask overflows. -/
theorem coversEndpoint_bitwise (x : Exemptions) (e : Endpoint) :
    (x.coversEndpoint e = true ↔
      match e.ip with
      | .v4 a => ∃ r ∈ x.ipv4, (r.port = 0 ∨ r.port = e.port) ∧ r.Contains a
      | .v6 a => x.allIpv6 = true ∨ ∃ r ∈ x.ipv6, r.Contains a) ∧
    (∀ y, x.SameInside y → y.coversEndpoint e = x.coversEndpoint e) ∧
    ∀ (r : Ipv6Exemption) (a : Ipv6),
      Ipv6.agree? r.length.toNat a r.network = some (r.covers a) := by
  refine ⟨?_, fun y hy => (hy.coversEndpoint e).symm, fun r a => ?_⟩
  · unfold coversEndpoint
    cases e.ip with
    | v4 a => simp only [List.any_eq_true, Ipv4Exemption.covers_iff]
    | v6 a => simp only [Bool.or_eq_true, List.any_eq_true, Ipv6Exemption.covers_iff]
  · rw [Ipv6Exemption.covers, Ipv6.agree, Ipv6.agree?_eq]
    simp

/-- The mask of the IPv4 rule has a gap, and both networks have bits that their rules do not look
at. -/
def strayRules : Exemptions where
  ipv4 := [⟨.of 10 7 0 1, .of 255 0 0 1, 443⟩]
  ipv6 := [⟨.ofGroups [0xfc01, 0, 0, 0, 0, 0, 0, 1], 7⟩]
  allIpv6 := false

/-- The same rules without these bits. -/
def tidyRules : Exemptions where
  ipv4 := [⟨.of 10 0 0 1, .of 255 0 0 1, 443⟩]
  ipv6 := [⟨.ofGroups [0xfc00, 0, 0, 0, 0, 0, 0, 0], 7⟩]
  allIpv6 := false

theorem coversEndpoint_bitwise_stray :
    strayRules.coversEndpoint (.new (.v4 (.of 10 200 0 3)) 443) = true ∧
      tidyRules.coversEndpoint (.new (.v4 (.of 10 200 0 3)) 443) =
        strayRules.coversEndpoint (.new (.v4 (.of 10 200 0 3)) 443) := by
  have hsame : strayRules.SameInside tidyRules :=
    { ipv4 := .cons ⟨rfl, rfl, Ipv4.agree_iff.1 (by decide)⟩ .nil
      ipv6 := .cons ⟨rfl, Ipv6.agree_iff.1 (by decide)⟩ .nil
      allIpv6 := rfl }
  obtain ⟨hcovers, hnetworks, -⟩ :=
    coversEndpoint_bitwise strayRules (.new (.v4 (.of 10 200 0 3)) 443)
  refine ⟨hcovers.2 ?_, hnetworks tidyRules hsame⟩
  exact ⟨_, List.mem_singleton_self _, .inr rfl, Ipv4.agree_iff.1 (by decide)⟩

end Exemptions

end Egress
