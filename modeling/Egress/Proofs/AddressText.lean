import Egress.Ip.NumericHost
import Egress.SocketAddr.Basic
import Mathlib.Algebra.Ring.Nat

/-!
Addresses and their text undo each other. The pieces between colons are never empty, so the only
`::` in the text of an IPv6 address is the one that stands for its longest run of zero groups, and
an IPv4 address has no colon in its text at all. A host is read as the address whose text it is. No
text of an address holds a NUL, so a line that quotes one is never lost for it.
-/

namespace Egress

namespace Text

theorem mem_join {sep c : Char} {ps : List (List Char)} (h : c ∈ join sep ps) :
    c = sep ∨ ∃ p ∈ ps, c ∈ p := by
  induction ps with
  | nil => cases h
  | cons p ps ih =>
      cases ps with
      | nil => exact .inr ⟨p, List.mem_singleton_self p, h⟩
      | cons q rest =>
          rw [join, List.mem_append, List.mem_cons] at h
          rcases h with h | h | h
          · exact .inr ⟨p, List.mem_cons_self, h⟩
          · exact .inl h
          · apply (ih h).imp_right
            rintro ⟨r, hr, hc⟩
            exact ⟨r, List.mem_cons_of_mem p hr, hc⟩

end Text

namespace Ipv4

theorem octet?_digits (o : UInt8) : octet? (Nat.toDigits 10 o.toNat) = some o := by
  have hall : (List.range 256).all
      (fun n => octet? (Nat.toDigits 10 n) == some (UInt8.ofNat n)) = true := by decide +kernel
  simpa using List.all_eq_true.1 hall o.toNat (List.mem_range.2 o.toNat_lt)

theorem dot_or_isDigit_of_mem_chars {a : Ipv4} {c : Char} (h : c ∈ a.chars) :
    c = '.' ∨ c.isDigit = true := by
  apply (Text.mem_join h).imp_right
  rintro ⟨p, hp, hc⟩
  obtain ⟨o, -, rfl⟩ := List.mem_map.1 hp
  exact Nat.isDigit_of_mem_toDigits (by decide) (by decide) hc

theorem colon_notMem_chars (a : Ipv4) : ':' ∉ a.chars := by
  intro h
  exact absurd (dot_or_isDigit_of_mem_chars h) (by decide)

theorem nul_notMem_chars (a : Ipv4) : '\x00' ∉ a.chars := by
  intro h
  exact absurd (dot_or_isDigit_of_mem_chars h) (by decide)

theorem pieces_chars (a : Ipv4) :
    Text.pieces '.' a.chars = a.octets.map fun o => Nat.toDigits 10 o.toNat := by
  apply Text.pieces_join
  · intro h
    have hlength := congrArg List.length h
    rw [List.length_map, length_octets] at hlength
    cases hlength
  · intro p hp hmem
    obtain ⟨o, -, rfl⟩ := List.mem_map.1 hp
    exact absurd (Nat.isDigit_of_mem_toDigits (by decide) (by decide) hmem) (by decide)

theorem ofChars?_chars (a : Ipv4) : ofChars? a.chars = some a := by
  obtain ⟨o₁, o₂, o₃, o₄, ho⟩ : ∃ o₁ o₂ o₃ o₄, a.octets = [o₁, o₂, o₃, o₄] := ⟨_, _, _, _, rfl⟩
  have hback : of o₁ o₂ o₃ o₄ = a := by
    rw [of, ← ho, ofOctets_octets]
  rw [ofChars?, pieces_chars, ho]
  simp only [List.map_cons, List.map_nil, octet?_digits, Option.bind_eq_bind, Option.bind_some,
    hback]
  rfl

/-- Too long for a group of an IPv6 address. -/
theorem length_chars (a : Ipv4) : 4 < a.chars.length := by
  obtain ⟨o₁, o₂, o₃, o₄, ho⟩ : ∃ o₁ o₂ o₃ o₄, a.octets = [o₁, o₂, o₃, o₄] := ⟨_, _, _, _, rfl⟩
  have hpos (o : UInt8) : 0 < (Nat.toDigits 10 o.toNat).length := Nat.length_toDigits_pos
  have h₁ := hpos o₁
  have h₂ := hpos o₂
  simp only [chars, ho, List.map_cons, List.map_nil, Text.join, List.length_append,
    List.length_cons]
  omega

end Ipv4

namespace Ipv6

/-- Dividing by the base moves every digit one place down. -/
theorem foldl_digits (base k n : Nat) :
    ((List.range k).map fun i => n / base ^ (k - 1 - i) % base).foldl (fun m g => m * base + g) 0 =
      n % base ^ k := by
  induction k generalizing n with
  | zero => rw [Nat.pow_zero, Nat.mod_one]; rfl
  | succ k ih =>
      have hmoved : (List.range k).map (fun i => n / base ^ (k + 1 - 1 - i) % base) =
          (List.range k).map fun i => n / base / base ^ (k - 1 - i) % base := by
        apply List.map_congr_left
        intro i hi
        have hexp : k + 1 - 1 - i = k - 1 - i + 1 := by
          have := List.mem_range.1 hi
          omega
        rw [hexp, Nat.pow_succ', Nat.div_div_eq_div_mul]
      rw [List.range_succ, List.map_append, List.foldl_append, hmoved, ih]
      simp only [List.map_cons, List.map_nil, List.foldl_cons, List.foldl_nil,
        Nat.add_sub_cancel, Nat.sub_self, Nat.pow_zero, Nat.div_one]
      rw [Nat.pow_succ', Nat.mod_mul, Nat.mul_comm, Nat.add_comm]

theorem group_lt (a : Ipv6) (i : Nat) : a.group i < 65536 := (a.bits.extractLsb' _ 16).isLt

theorem group_eq (a : Ipv6) (i : Nat) : a.group i = a.toNat / 65536 ^ (7 - i) % 65536 := by
  have hplace : (65536 : Nat) ^ (7 - i) = 2 ^ (16 * (7 - i)) := by
    rw [Nat.pow_mul]
  rw [group, BitVec.extractLsb'_toNat, Nat.shiftRight_eq_div_pow, hplace]
  rfl

theorem lt_of_mem_groups {a : Ipv6} {g : Nat} (h : g ∈ a.groups) : g < 65536 := by
  obtain ⟨i, -, rfl⟩ := List.mem_map.1 h
  exact a.group_lt i

theorem ofGroups_groups (a : Ipv6) : ofGroups a.groups = a := by
  have hgroups : a.groups = (List.range 8).map fun i => a.toNat / 65536 ^ (8 - 1 - i) % 65536 := by
    apply List.map_congr_left
    intro i _
    exact a.group_eq i
  have hlt : a.toNat < 65536 ^ 8 := a.toNat_lt
  rw [ofGroups, hgroups, foldl_digits, Nat.mod_eq_of_lt hlt, ofNat_toNat]

theorem leadingZeros_split (gs : List Nat) :
    ∃ rest, gs = List.replicate (leadingZeros gs) 0 ++ rest := by
  induction gs with
  | nil => exact ⟨[], rfl⟩
  | cons g gs ih =>
      cases g with
      | zero =>
          obtain ⟨rest, hrest⟩ := ih
          refine ⟨rest, ?_⟩
          rw [leadingZeros, List.replicate_succ, List.cons_append, ← hrest]
      | succ g => exact ⟨(g + 1) :: gs, rfl⟩

/-- The longest run is where it says and of the length it says. -/
theorem longestRun_split (gs : List Nat) :
    ∃ front back, gs = front ++ List.replicate (longestRun gs).2 0 ++ back ∧
      front.length = (longestRun gs).1 := by
  induction gs with
  | nil => exact ⟨[], [], rfl, rfl⟩
  | cons g gs ih =>
      simp only [longestRun]
      split
      · obtain ⟨rest, hrest⟩ := leadingZeros_split (g :: gs)
        exact ⟨[], rest, hrest, rfl⟩
      · obtain ⟨front, back, hgs, hfront⟩ := ih
        refine ⟨g :: front, back, ?_, by rw [List.length_cons, hfront]⟩
        rw [List.cons_append, List.cons_append, ← hgs]

/-- The pieces that groups are written as. -/
def Written (ps : List (List Char)) : Prop := ∀ p ∈ ps, p ≠ [] ∧ ':' ∉ p

theorem written_groups (gs : List Nat) : Written (gs.map (Nat.toDigits 16)) := by
  intro p hp
  obtain ⟨g, -, rfl⟩ := List.mem_map.1 hp
  exact ⟨Nat.toDigits_ne_nil, Text.notMem_toDigits (by decide) (by decide) (by decide) g⟩

theorem splitGap_cons_of_ne {c : Char} {cs : List Char} (h : ∀ rest, c :: cs ≠ ':' :: ':' :: rest) :
    splitGap (c :: cs) = (splitGap cs).map fun (head, tail) => (c :: head, tail) := by
  rw [splitGap]
  intro rest hc hcs
  exact h rest (by rw [hc, hcs])

theorem splitGap_append {p : List Char} (h : ':' ∉ p) (cs : List Char) :
    splitGap (p ++ cs) = (splitGap cs).map fun (head, tail) => (p ++ head, tail) := by
  induction p with
  | nil => simp
  | cons c p ih =>
      rw [List.mem_cons, not_or] at h
      rw [List.cons_append, splitGap_cons_of_ne, ih h.2, Option.map_map]
      · rfl
      · intro rest hcs
        exact h.1 (List.cons.inj hcs).1.symm

/-- Pieces and single colons hold no gap. -/
theorem splitGap_join {ps : List (List Char)} (h : Written ps) (cs : List Char) :
    splitGap (Text.join ':' ps ++ cs) =
      (splitGap cs).map fun (head, tail) => (Text.join ':' ps ++ head, tail) := by
  induction ps with
  | nil => simp [Text.join]
  | cons p ps ih =>
      have hp := h p List.mem_cons_self
      have hps : Written ps := fun q hq => h q (List.mem_cons_of_mem p hq)
      cases ps with
      | nil => exact splitGap_append hp.2 cs
      | cons q rest =>
          obtain ⟨hne, hcolon⟩ := hps q List.mem_cons_self
          have hstart : ∀ tail, ':' :: (Text.join ':' (q :: rest) ++ cs) ≠ ':' :: ':' :: tail := by
            intro tail htail
            obtain ⟨c, q, rfl⟩ := List.exists_cons_of_ne_nil hne
            have hc : c ≠ ':' := fun hc => hcolon (hc ▸ List.mem_cons_self)
            cases rest <;> exact hc (List.cons.inj (List.cons.inj htail).2).1
          rw [Text.join, List.append_assoc, List.cons_append, splitGap_append hp.2,
            splitGap_cons_of_ne hstart, ih hps, Option.map_map, Option.map_map]
          simp only [Function.comp_def, List.append_assoc, List.cons_append]

theorem splitGap_hexGroups (gs : List Nat) : splitGap (hexGroups gs) = none := by
  have h := splitGap_join (written_groups gs) []
  rwa [List.append_nil] at h

theorem splitGap_gap (front back : List Nat) :
    splitGap (hexGroups front ++ ':' :: ':' :: hexGroups back) =
      some (hexGroups front, hexGroups back) := by
  rw [hexGroups, splitGap_join (written_groups front)]
  simp only [splitGap, Option.map_some, List.append_nil]

theorem pieces_hexGroups {gs : List Nat} (h : gs ≠ []) :
    Text.pieces ':' (hexGroups gs) = gs.map (Nat.toDigits 16) := by
  apply Text.pieces_join
  · simpa using h
  · intro p hp
    exact (written_groups gs p hp).2

theorem side_hexGroups (gs : List Nat) : side (hexGroups gs) = gs.map (Nat.toDigits 16) := by
  cases gs with
  | nil => rfl
  | cons g gs =>
      have hne : (hexGroups (g :: gs)).isEmpty = false := by
        cases gs <;> simp [hexGroups, Text.join]
      rw [side, hne, pieces_hexGroups (List.cons_ne_nil g gs)]
      rfl

theorem group?_digits {g : Nat} (h : g < 65536) : group? (Nat.toDigits 16 g) = some g := by
  have hlength : (Nat.toDigits 16 g).length ≤ 4 :=
    (Nat.length_toDigits_le_iff (by decide) (by decide)).2 h
  rw [group?, if_pos hlength, Text.numeral?_toDigits (by decide) (by decide)]

theorem groups?_digits (dotted : Bool) {gs : List Nat} (h : ∀ g ∈ gs, g < 65536) :
    groups? dotted (gs.map (Nat.toDigits 16)) = some gs := by
  induction gs with
  | nil => rfl
  | cons g gs ih =>
      have hg := group?_digits (h g List.mem_cons_self)
      have hgs := ih fun k hk => h k (List.mem_cons_of_mem g hk)
      cases gs with
      | nil => simp only [List.map_cons, List.map_nil, groups?, hg]
      | cons k gs =>
          rw [List.map_cons] at hgs
          simp only [List.map_cons, groups?, hg, hgs, Option.bind_eq_bind, Option.bind_some]
          rfl

/-- A dotted end fills two groups. -/
theorem groups?_chars (a : Ipv4) :
    groups? true [a.chars] = some [a.toNat / 65536, a.toNat % 65536] := by
  have hgroup : group? a.chars = none := by
    rw [group?, if_neg (Nat.not_le.2 a.length_chars)]
  simp only [groups?, hgroup, a.ofChars?_chars, if_true, Option.map_some]

theorem ofMapped_of_mapped? {a : Ipv6} {v4 : Ipv4} (h : a.mapped? = some v4) : ofMapped v4 = a := by
  rw [mapped?, Option.ite_none_right_eq_some, Option.some.injEq] at h
  obtain ⟨hhigh, rfl⟩ := h
  have hsum : 0xffff00000000 + a.toNat % 0x100000000 = a.toNat := by omega
  rw [ofMapped, Ipv4.toNat_ofNat, Nat.mod_mod, hsum, ofNat_toNat]

theorem ofChars?_mapped (v4 : Ipv4) :
    ofChars? ("::ffff:".toList ++ v4.chars) = some (ofMapped v4) := by
  have hchars : "::ffff:".toList ++ v4.chars =
    ':' :: ':' :: ("ffff".toList ++ ':' :: v4.chars) := rfl
  have hside : side ("ffff".toList ++ ':' :: v4.chars) = ["ffff".toList, v4.chars] := by
    rw [side, Text.pieces_append_sep (by decide), Text.pieces_of_not_mem v4.colon_notMem_chars]
    rfl
  have hback : groups? true ["ffff".toList, v4.chars] =
      some [0xffff, v4.toNat / 65536, v4.toNat % 65536] := by
    have hffff : group? "ffff".toList = some 0xffff := by decide
    rw [groups?, hffff, groups?_chars]
    rfl
  have hsum : (0xffff * 65536 + v4.toNat / 65536) * 65536 + v4.toNat % 65536 =
    0xffff00000000 + v4.toNat := by omega
  rw [hchars, ofChars?, splitGap]
  simp only [hside, hback]
  rw [ofMapped, ← hsum]
  rfl

/-- The text of an address is read as the address. -/
theorem ofChars?_chars (a : Ipv6) : ofChars? a.chars = some a := by
  cases hmapped : a.mapped? with
  | some v4 =>
      have hchars : a.chars = "::ffff:".toList ++ v4.chars := by simp only [chars, hmapped]
      rw [hchars, ofChars?_mapped, ofMapped_of_mapped? hmapped]
  | none =>
      have hlength : a.groups.length = 8 := by rw [groups, List.length_map, List.length_range]
      obtain ⟨front, back, hgroups, hfront⟩ := longestRun_split a.groups
      simp only [chars, hmapped]
      generalize longestRun a.groups = run at hgroups hfront
      obtain ⟨start, length⟩ := run
      simp only at hgroups hfront ⊢
      have hlt : ∀ g ∈ front ++ List.replicate length 0 ++ back, g < 65536 := by
        intro g hg
        exact lt_of_mem_groups (hgroups ▸ hg)
      split
      · have htake : a.groups.take start = front := by
          rw [hgroups, List.append_assoc, List.take_left' hfront]
        have hdrop : a.groups.drop (start + length) = back := by
          rw [hgroups, List.drop_left']
          rw [List.length_append, List.length_replicate, hfront]
        have hgap : 8 - front.length - back.length = length := by
          rw [hgroups] at hlength
          simp only [List.length_append, List.length_replicate] at hlength
          omega
        have hne : length ≠ 0 := by omega
        rw [ofChars?, htake, hdrop, splitGap_gap]
        simp only [side_hexGroups]
        rw [groups?_digits false, groups?_digits true]
        · simp only [Option.bind_eq_bind, Option.bind_some, hgap, if_neg hne]
          rw [← hgroups, ofGroups_groups]
        · intro g hg
          exact hlt g (List.mem_append_right _ hg)
        · intro g hg
          exact hlt g (List.mem_append_left _ (List.mem_append_left _ hg))
      · have hne : a.groups ≠ [] := List.ne_nil_of_length_eq_add_one hlength
        rw [ofChars?, splitGap_hexGroups]
        simp only [pieces_hexGroups hne]
        rw [groups?_digits true fun g hg => lt_of_mem_groups hg]
        simp only [Option.bind_eq_bind, Option.bind_some, if_pos hlength, ofGroups_groups]

/-- Two groups are no address. -/
theorem ofChars?_chars_v4 (a : Ipv4) : ofChars? a.chars = none := by
  have hgap : splitGap a.chars = none := by
    have h := splitGap_append a.colon_notMem_chars []
    rwa [List.append_nil] at h
  rw [ofChars?, hgap]
  simp only [Text.pieces_of_not_mem a.colon_notMem_chars, groups?_chars]
  rfl

theorem nul_notMem_hexGroups (gs : List Nat) : '\x00' ∉ hexGroups gs := by
  intro h
  rcases Text.mem_join h with hcolon | ⟨p, hp, hnul⟩
  · cases hcolon
  · obtain ⟨g, -, rfl⟩ := List.mem_map.1 hp
    exact Text.notMem_toDigits (by decide) (by decide) (by decide) g hnul

theorem nul_notMem_chars (a : Ipv6) : '\x00' ∉ a.chars := by
  have hcolon : '\x00' ≠ ':' := by decide
  unfold chars
  split
  · rename_i v4 _
    rw [List.mem_append, not_or]
    exact ⟨by decide, v4.nul_notMem_chars⟩
  · simp only
    split
    · simp only [List.mem_append, List.mem_cons, hcolon, nul_notMem_hexGroups, or_false,
        not_false_eq_true]
    · exact nul_notMem_hexGroups _

end Ipv6

/-- The text of an address, as the name of a host, stands for exactly this address. -/
theorem NumericHost.read?_text (ip : IpAddr) : read? ip.text = some ip := by
  cases ip with
  | v4 a =>
      rw [read?, IpAddr.text, Ipv4.text, Ipv6.read?, String.toList_ofList, Ipv6.ofChars?_chars_v4]
      simp only [ipv4?_chars, Option.map_some]
  | v6 a =>
      rw [read?, IpAddr.text, Ipv6.text, Ipv6.read?, String.toList_ofList, Ipv6.ofChars?_chars]

/-- No address is a reason why a line is not delivered. -/
theorem SocketAddr.nul_notMem_text (a : SocketAddr) : '\x00' ∉ a.text.toList := by
  have hdigits (n : Nat) : '\x00' ∉ Nat.toDigits 10 n :=
    Text.notMem_toDigits (by decide) (by decide) (by decide) n
  cases a with
  | v4 a =>
      simp [text, SocketAddr4.text, Ipv4.text, toString, String.toList_append, Nat.toList_repr,
        hdigits, a.ip.nul_notMem_chars]
  | v6 a =>
      simp only [text, SocketAddr6.text]
      split <;>
        simp [Ipv6.text, toString, String.toList_append, Nat.toList_repr, hdigits,
          a.ip.nul_notMem_chars]

end Egress
