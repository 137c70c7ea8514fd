import Egress.Proofs.Run
import Egress.SyntheticTable

/-!
A synthetic table as a window on the list of everything it ever allocated. Allocation `k` has the
host part `k mod capacity + 1`, a name is bound while its allocation is among the last `capacity`
ones, and a name asked for again keeps its allocation, so that bindings end in the order in which
they began.
-/

namespace Egress

/-- Everything a table of some capacity in some block has allocated, oldest first. -/
structure AllocationLog where
  block : UInt8
  capacity : Nat
  names : List String := []

namespace AllocationLog

def forgotten (l : AllocationLog) : Nat := l.names.length - l.capacity

/-- The numbers of the last `capacity` allocations. -/
def liveNumbers (l : AllocationLog) : List Nat :=
  List.range' l.forgotten (l.names.length - l.forgotten)

/-- The names of the last `capacity` allocations. -/
def liveNames (l : AllocationLog) : List String := l.names.drop l.forgotten

def address (l : AllocationLog) (k : Nat) : Ipv4 :=
  .ofOctets (l.block :: Bytes.toBigEndian 3 (k % l.capacity + 1))

def number? (l : AllocationLog) (name : String) : Option Nat :=
  l.liveNumbers.find? (l.names[·]? == some name)

def nameOf? (l : AllocationLog) (a : Ipv4) : Option String :=
  (l.liveNumbers.find? (l.address · == a)).bind (l.names[·]?)

/-- The name that the next allocation displaces, with its slot: the oldest live one, if all slots
are taken. -/
def displaced? (l : AllocationLog) : Option SyntheticTable.Eviction :=
  if l.names.length < l.capacity then none
  else l.liveNames.head?.map (⟨·, l.names.length % l.capacity⟩)

def push (l : AllocationLog) (name : String) : AllocationLog :=
  { l with names := l.names ++ [name] }

/-- Allocation `k` is live and went to this name. -/
def Holds (l : AllocationLog) (k : Nat) (name : String) : Prop :=
  l.names.length ≤ k + l.capacity ∧ l.names[k]? = some name

theorem mem_liveNumbers {l : AllocationLog} {k : Nat} :
    k ∈ l.liveNumbers ↔ l.names.length ≤ k + l.capacity ∧ k < l.names.length := by
  simp only [liveNumbers, forgotten, List.mem_range'_1]
  omega

theorem Holds.mem_liveNumbers {l : AllocationLog} {k : Nat} {name : String}
    (h : l.Holds k name) : k ∈ l.liveNumbers :=
  AllocationLog.mem_liveNumbers.2 ⟨h.1, (List.getElem?_eq_some_iff.1 h.2).1⟩

theorem mem_liveNames {l : AllocationLog} {name : String} :
    name ∈ l.liveNames ↔ ∃ k, l.Holds k name := by
  rw [liveNames, List.mem_iff_getElem?]
  constructor
  · rintro ⟨i, hi⟩
    rw [List.getElem?_drop] at hi
    exact ⟨l.forgotten + i, by simp only [forgotten]; omega, hi⟩
  · rintro ⟨k, hlive, hk⟩
    have hle : l.forgotten ≤ k := by simp only [forgotten]; omega
    exact ⟨k - l.forgotten, by rwa [List.getElem?_drop, Nat.add_sub_cancel' hle]⟩

theorem length_liveNames (l : AllocationLog) :
    l.liveNames.length = min l.names.length l.capacity := by
  simp only [liveNames, forgotten, List.length_drop]
  omega

/-- Two numbers less than a capacity apart have different slots. -/
theorem eq_of_mod_eq {c j k : Nat} (h : j % c = k % c) (hj : j < k + c) (hk : k < j + c) :
    j = k := by
  have hjk := Nat.sub_mod_eq_zero_of_mod_eq h
  have hkj := Nat.sub_mod_eq_zero_of_mod_eq h.symm
  rw [Nat.mod_eq_of_lt (by omega)] at hjk hkj
  omega

/-- Every slot below the number of taken ones is that of a live allocation. -/
theorem exists_mod_eq {c n i : Nat} (hi : i < min n c) :
    ∃ k, n ≤ k + c ∧ k < n ∧ k % c = i := by
  refine ⟨i + c * ((n - 1 - i) / c), ?_, ?_, ?_⟩
  · have := Nat.div_add_mod (n - 1 - i) c
    have := Nat.mod_lt (n - 1 - i) (y := c) (by omega)
    omega
  · have := Nat.div_mul_le_self (n - 1 - i) c
    rw [Nat.mul_comm] at this
    omega
  · rw [Nat.add_mul_mod_self_left, Nat.mod_eq_of_lt (by omega)]

theorem hostPart_address {l : AllocationLog} (hpos : 0 < l.capacity)
    (hc : l.capacity < 0x1000000) (k : Nat) : (l.address k).hostPart = k % l.capacity + 1 := by
  have hk := Nat.mod_lt k hpos
  have hplace : Bytes.place 3 = 0x1000000 := rfl
  rw [address, Ipv4.ofOctets, Bytes.bigEndian, Bytes.length_toBigEndian,
    Bytes.bigEndian_toBigEndian, hplace, Ipv4.hostPart_ofNat _ (Nat.mod_lt _ (by decide)),
    Nat.mod_eq_of_lt (by omega)]

end AllocationLog

inductive TableCall
  | bind (name : String)
  | nameOf (address : Ipv4)

inductive TableAnswer
  | bound (address : Ipv4) (evicted : Option SyntheticTable.Eviction)
  | named (name : Option String)
deriving DecidableEq

def AllocationLog.answer (l : AllocationLog) : TableCall → TableAnswer × AllocationLog
  | .bind name =>
      match l.number? name with
      | some k => (.bound (l.address k) none, l)
      | none => (.bound (l.address l.names.length) l.displaced?, l.push name)
  | .nameOf a => (.named (l.nameOf? a), l)

@[simp] theorem AllocationLog.block_answer (l : AllocationLog) (call : TableCall) :
    (l.answer call).2.block = l.block := by
  cases call with
  | nameOf a => rfl
  | bind name =>
      simp only [answer]
      split <;> rfl

@[simp] theorem AllocationLog.capacity_answer (l : AllocationLog) (call : TableCall) :
    (l.answer call).2.capacity = l.capacity := by
  cases call with
  | nameOf a => rfl
  | bind name =>
      simp only [answer]
      split <;> rfl

namespace SyntheticTable

def answer (t : SyntheticTable) : TableCall → TableAnswer × SyntheticTable
  | .bind name => (.bound (t.bind name).address (t.bind name).evicted, (t.bind name).table)
  | .nameOf a => (.named (t.nameOf? a), t)

theorem addressOf_eq_address {t : SyntheticTable} {l : AllocationLog} (hb : t.block = l.block)
    (k : Nat) : t.addressOf (k % l.capacity) = l.address k := by
  rw [addressOf, AllocationLog.address, Ipv4.ofOctets, Bytes.bigEndian, Bytes.length_toBigEndian,
    Bytes.bigEndian_toBigEndian, hb]
  rfl

/-- Slots and their addresses determine each other. -/
theorem slotOf?_eq_some {t : SyntheticTable} {a : Ipv4} {i : Nat} :
    t.slotOf? a = some i ↔ i < t.capacity ∧ t.addressOf i = a := by
  have hc := t.capacity_lt
  simp only [slotOf?, isSynthetic, beq_iff_eq, Option.ite_none_right_eq_some, Option.some.injEq]
  constructor
  · rintro ⟨⟨hb, hpos, hle⟩, rfl⟩
    refine ⟨by omega, ?_⟩
    rw [addressOf, Nat.sub_add_cancel hpos, Nat.mod_eq_of_lt (by omega), ← hb]
    exact Ipv4.ofNat_block_add_hostPart a
  · rintro ⟨hi, rfl⟩
    rw [addressOf, Nat.mod_eq_of_lt (by omega), Ipv4.block_ofNat _ (by omega),
      Ipv4.hostPart_ofNat _ (by omega)]
    exact ⟨⟨rfl, by omega, by omega⟩, Nat.add_sub_cancel i 1⟩

/-- A table that allocated what the log says, in that order, and nothing else. -/
structure Mirrors (t : SyntheticTable) (l : AllocationLog) : Prop where
  block : t.block = l.block
  capacity : t.capacity = l.capacity
  cursor : t.cursor = l.names.length % l.capacity
  filled : t.slots.size = min l.names.length l.capacity
  slot : ∀ k ∈ l.liveNumbers, t.slots[k % l.capacity]? = l.names[k]?
  holder : ∀ (name : String) (i : Nat), t.names[name]? = some i ↔ t.slots[i]? = some name
  size : t.size = min l.names.length l.capacity

namespace Mirrors

variable {t : SyntheticTable} {l : AllocationLog}

theorem capacity_pos (h : t.Mirrors l) : 0 < l.capacity := h.capacity ▸ t.capacity_pos

theorem capacity_lt (h : t.Mirrors l) : l.capacity < 0x1000000 := h.capacity ▸ t.capacity_lt

theorem empty (block : UInt8) (capacity : Nat) :
    (SyntheticTable.new block capacity).Mirrors ⟨block, max 1 (min capacity 0xffffff), []⟩ where
  block := rfl
  capacity := rfl
  cursor := (Nat.zero_mod _).symm
  filled := (Nat.zero_min _).symm
  slot k hk := by simp [AllocationLog.liveNumbers] at hk
  holder name i := by simp [SyntheticTable.new]
  size := by simp [SyntheticTable.size, SyntheticTable.new]

/-- The slots hold exactly the live allocations. -/
theorem slots_eq_some (h : t.Mirrors l) {i : Nat} {name : String} :
    t.slots[i]? = some name ↔ ∃ k, l.Holds k name ∧ k % l.capacity = i := by
  constructor
  · intro hi
    have hlt : i < min l.names.length l.capacity := by
      rw [← h.filled]
      exact (Array.getElem?_eq_some_iff.1 hi).1
    obtain ⟨k, hlive, hk, rfl⟩ := AllocationLog.exists_mod_eq hlt
    rw [h.slot k (AllocationLog.mem_liveNumbers.2 ⟨hlive, hk⟩)] at hi
    exact ⟨k, ⟨hlive, hi⟩, rfl⟩
  · rintro ⟨k, hk, rfl⟩
    rw [h.slot k hk.mem_liveNumbers]
    exact hk.2

theorem names_eq_some (h : t.Mirrors l) {i : Nat} {name : String} :
    t.names[name]? = some i ↔ ∃ k, l.Holds k name ∧ k % l.capacity = i := by
  rw [h.holder, h.slots_eq_some]

theorem holds_unique (h : t.Mirrors l) {j k : Nat} {name : String} (hj : l.Holds j name)
    (hk : l.Holds k name) : j = k := by
  have hslot := h.names_eq_some.2 ⟨j, hj, rfl⟩
  rw [h.names_eq_some.2 ⟨k, hk, rfl⟩, Option.some.injEq] at hslot
  have := AllocationLog.mem_liveNumbers.1 hj.mem_liveNumbers
  have := AllocationLog.mem_liveNumbers.1 hk.mem_liveNumbers
  exact AllocationLog.eq_of_mod_eq hslot.symm (by omega) (by omega)

theorem number?_eq_some (h : t.Mirrors l) {k : Nat} {name : String} :
    l.number? name = some k ↔ l.Holds k name := by
  constructor
  · intro hk
    have hlive := AllocationLog.mem_liveNumbers.1 (List.mem_of_find?_eq_some hk)
    exact ⟨hlive.1, by simpa using List.find?_some hk⟩
  · intro hk
    cases hn : l.number? name with
    | none =>
        have := List.find?_eq_none.1 hn k hk.mem_liveNumbers
        simp [hk.2] at this
    | some j =>
        have hlive := AllocationLog.mem_liveNumbers.1 (List.mem_of_find?_eq_some hn)
        have hj : l.Holds j name := ⟨hlive.1, by simpa using List.find?_some hn⟩
        rw [h.holds_unique hj hk]

theorem address_injective (h : t.Mirrors l) {j k : Nat} (hj : j ∈ l.liveNumbers)
    (hk : k ∈ l.liveNumbers) (ha : l.address j = l.address k) : j = k := by
  have hhost := congrArg Ipv4.hostPart ha
  rw [AllocationLog.hostPart_address h.capacity_pos h.capacity_lt,
    AllocationLog.hostPart_address h.capacity_pos h.capacity_lt, Nat.add_right_cancel_iff] at hhost
  have := AllocationLog.mem_liveNumbers.1 hj
  have := AllocationLog.mem_liveNumbers.1 hk
  exact AllocationLog.eq_of_mod_eq hhost (by omega) (by omega)

theorem nameOf?_eq_some (h : t.Mirrors l) {a : Ipv4} {name : String} :
    t.nameOf? a = some name ↔ ∃ k, l.Holds k name ∧ l.address k = a := by
  have hunfold : t.nameOf? a = some name ↔
      ∃ i, t.slotOf? a = some i ∧ t.slots[i]? = some name := Option.bind_eq_some_iff
  rw [hunfold]
  constructor
  · rintro ⟨i, hi, hname⟩
    obtain ⟨k, hk, rfl⟩ := h.slots_eq_some.1 hname
    exact ⟨k, hk, by rw [← addressOf_eq_address h.block, (slotOf?_eq_some.1 hi).2]⟩
  · rintro ⟨k, hk, rfl⟩
    have hlt : k % l.capacity < t.capacity := by
      rw [h.capacity]
      exact Nat.mod_lt k h.capacity_pos
    exact ⟨k % l.capacity, slotOf?_eq_some.2 ⟨hlt, addressOf_eq_address h.block k⟩,
      h.slots_eq_some.2 ⟨k, hk, rfl⟩⟩

theorem nameOf?_eq (h : t.Mirrors l) (a : Ipv4) : t.nameOf? a = l.nameOf? a := by
  ext name
  rw [h.nameOf?_eq_some, AllocationLog.nameOf?, Option.bind_eq_some_iff]
  constructor
  · rintro ⟨k, hk, rfl⟩
    refine ⟨k, ?_, hk.2⟩
    cases hf : l.liveNumbers.find? (l.address · == l.address k) with
    | none =>
        have := List.find?_eq_none.1 hf k hk.mem_liveNumbers
        simp at this
    | some j =>
        have hj : l.address j = l.address k := by simpa using List.find?_some hf
        rw [h.address_injective (List.mem_of_find?_eq_some hf) hk.mem_liveNumbers hj]
  · rintro ⟨k, hk, hname⟩
    have hlive := AllocationLog.mem_liveNumbers.1 (List.mem_of_find?_eq_some hk)
    exact ⟨k, ⟨hlive.1, hname⟩, by simpa using List.find?_some hk⟩

end Mirrors

@[simp] theorem address_allocate (t : SyntheticTable) (name : String) :
    (t.allocate name).address = t.addressOf t.cursor := by
  simp only [allocate]
  split <;> rfl

@[simp] theorem evicted_allocate (t : SyntheticTable) (name : String) :
    (t.allocate name).evicted = t.slots[t.cursor]?.map (⟨·, t.cursor⟩) := by
  cases hs : t.slots[t.cursor]? <;> simp [allocate, hs]

@[simp] theorem block_allocate (t : SyntheticTable) (name : String) :
    (t.allocate name).table.block = t.block := by
  simp only [allocate]
  split <;> rfl

@[simp] theorem capacity_allocate (t : SyntheticTable) (name : String) :
    (t.allocate name).table.capacity = t.capacity := by
  simp only [allocate]
  split <;> rfl

@[simp] theorem cursor_allocate (t : SyntheticTable) (name : String) :
    (t.allocate name).table.cursor = (t.cursor + 1) % t.capacity := by
  simp only [allocate]
  split <;> rfl

theorem slots_allocate {t : SyntheticTable} (hc : t.cursor ≤ t.slots.size) (name : String)
    (i : Nat) : (t.allocate name).table.slots[i]? =
      if i = t.cursor then some name else t.slots[i]? := by
  cases hs : t.slots[t.cursor]? with
  | none =>
      have hsize : t.slots.size = t.cursor := by
        have := Array.getElem?_eq_none_iff.1 hs
        omega
      simp only [allocate, hs, Array.getElem?_push, hsize]
  | some old =>
      have hlt := (Array.getElem?_eq_some_iff.1 hs).1
      simp only [allocate, hs, Array.getElem?_setIfInBounds, eq_comm, hlt, if_true]

theorem size_slots_allocate (t : SyntheticTable) (name : String) :
    (t.allocate name).table.slots.size =
      if t.slots[t.cursor]? = none then t.slots.size + 1 else t.slots.size := by
  cases hs : t.slots[t.cursor]? <;> simp [allocate, hs]

theorem names_allocate (t : SyntheticTable) (name m : String) :
    (t.allocate name).table.names[m]? =
      if name = m then some t.cursor
      else if t.slots[t.cursor]? = some m then none else t.names[m]? := by
  cases hs : t.slots[t.cursor]? <;>
    simp [allocate, hs, Std.HashMap.getElem?_insert, Std.HashMap.getElem?_erase]

theorem size_allocate {t : SyntheticTable} {name : String} (hfree : t.names[name]? = none)
    (holder : ∀ (m : String) (i : Nat), t.names[m]? = some i ↔ t.slots[i]? = some m) :
    (t.allocate name).table.size =
      if t.slots[t.cursor]? = none then t.size + 1 else t.size - 1 + 1 := by
  have hname : name ∉ t.names := by simpa using hfree
  cases hs : t.slots[t.cursor]? with
  | none => simp [allocate, hs, size, Std.HashMap.size_insert, hname]
  | some old =>
      have hold : old ∈ t.names := by
        rw [Std.HashMap.mem_iff_isSome_getElem?, (holder old t.cursor).2 hs]
        rfl
      simp [allocate, hs, size, Std.HashMap.size_insert, Std.HashMap.size_erase, hname, hold]

namespace Mirrors

variable {t : SyntheticTable} {l : AllocationLog}

/-- The slot at the cursor is taken as soon as there are as many allocations as slots. -/
theorem slots_cursor (h : t.Mirrors l) :
    t.slots[t.cursor]? =
      if l.names.length < l.capacity then none else l.names[l.names.length - l.capacity]? := by
  have hpos := h.capacity_pos
  split
  · rename_i hlt
    rw [h.cursor, Nat.mod_eq_of_lt hlt, Array.getElem?_eq_none_iff, h.filled]
    omega
  · rename_i hge
    have hmod : l.names.length % l.capacity = (l.names.length - l.capacity) % l.capacity := by
      rw [← Nat.mod_eq_sub_mod (by omega)]
    rw [h.cursor, hmod]
    exact h.slot _ (AllocationLog.mem_liveNumbers.2 (by omega))

theorem cursor_le (h : t.Mirrors l) : t.cursor ≤ t.slots.size := by
  rw [h.cursor, h.filled]
  have := Nat.mod_le l.names.length l.capacity
  have := Nat.mod_lt l.names.length h.capacity_pos
  omega

theorem slots_cursor_eq_none (h : t.Mirrors l) :
    t.slots[t.cursor]? = none ↔ l.names.length < l.capacity := by
  have hpos := h.capacity_pos
  rw [h.slots_cursor]
  split
  · simp [*]
  · rw [List.getElem?_eq_none_iff]
    omega

theorem displaced?_eq (h : t.Mirrors l) :
    l.displaced? = t.slots[t.cursor]?.map (⟨·, t.cursor⟩) := by
  rw [AllocationLog.displaced?, AllocationLog.liveNames, AllocationLog.forgotten, List.head?_drop,
    h.slots_cursor, h.cursor]
  split <;> rfl

/-- Allocating for a name that is not bound adds to the log. -/
theorem allocate (h : t.Mirrors l) {name : String} (hfree : t.names[name]? = none) :
    (t.allocate name).table.Mirrors (l.push name) where
  block := by rw [block_allocate, h.block]; rfl
  capacity := by rw [capacity_allocate, h.capacity]; rfl
  cursor := by
    rw [cursor_allocate, h.cursor, h.capacity, Nat.mod_add_mod]
    simp [AllocationLog.push]
  filled := by
    have hpos := h.capacity_pos
    simp only [size_slots_allocate, h.slots_cursor_eq_none, h.filled, AllocationLog.push,
      List.length_append, List.length_singleton]
    split <;> omega
  slot k hk := by
    obtain ⟨hlive, hlt⟩ := AllocationLog.mem_liveNumbers.1 hk
    simp only [AllocationLog.push, List.length_append, List.length_singleton] at hlive hlt ⊢
    rw [slots_allocate h.cursor_le, h.cursor]
    by_cases hlast : k = l.names.length
    · rw [hlast, if_pos rfl, List.getElem?_concat_length]
    · have hold : k < l.names.length := by omega
      have hslot : k % l.capacity ≠ l.names.length % l.capacity := fun heq =>
        hlast (AllocationLog.eq_of_mod_eq heq (by omega) (by omega))
      rw [if_neg hslot, List.getElem?_append_left hold]
      exact h.slot k (AllocationLog.mem_liveNumbers.2 ⟨by omega, hold⟩)
  holder m i := by
    have hnot : t.slots[i]? ≠ some name := by
      rw [Ne, ← h.holder, hfree]
      exact Option.some_ne_none i ∘ Eq.symm
    have hm := h.holder m i
    have hcursor := h.holder m t.cursor
    rw [slots_allocate h.cursor_le, names_allocate]
    -- Only the slot at the cursor changes hands, from the displaced name to the new one.
    grind
  size := by
    have hpos := h.capacity_pos
    simp only [size_allocate hfree h.holder, h.slots_cursor_eq_none, h.size, AllocationLog.push,
      List.length_append, List.length_singleton]
    split <;> omega

/-- Every question is answered from the log and leaves the table with the log that it should. -/
theorem answer (h : t.Mirrors l) (call : TableCall) :
    (t.answer call).1 = (l.answer call).1 ∧ (t.answer call).2.Mirrors (l.answer call).2 := by
  cases call with
  | nameOf a => exact ⟨congrArg TableAnswer.named (h.nameOf?_eq a), h⟩
  | bind name =>
      simp only [SyntheticTable.answer, AllocationLog.answer, bind]
      cases hslot : t.names[name]? with
      | some i =>
          obtain ⟨k, hk, rfl⟩ := h.names_eq_some.1 hslot
          rw [h.number?_eq_some.2 hk]
          exact ⟨congrArg (TableAnswer.bound · none) (addressOf_eq_address h.block k), h⟩
      | none =>
          have hnumber : l.number? name = none := by
            rw [Option.eq_none_iff_forall_ne_some]
            intro k hk
            rw [h.names_eq_some.2 ⟨k, h.number?_eq_some.1 hk, rfl⟩] at hslot
            contradiction
          rw [hnumber]
          refine ⟨?_, h.allocate hslot⟩
          simp only [address_allocate, evicted_allocate, h.displaced?_eq,
            ← addressOf_eq_address h.block, ← h.cursor]

theorem nodup_liveNames (h : t.Mirrors l) : l.liveNames.Nodup := by
  rw [List.nodup_iff_pairwise_ne, List.pairwise_iff_getElem]
  intro i j hi hj hij heq
  simp only [AllocationLog.liveNames, List.length_drop, List.getElem_drop] at hi hj heq
  have hholds (k : Nat) (hk : l.forgotten + k < l.names.length) :
      l.Holds (l.forgotten + k) l.names[l.forgotten + k] := by
    refine ⟨?_, List.getElem?_eq_getElem hk⟩
    simp only [AllocationLog.forgotten]
    omega
  have := h.holds_unique (hholds i (by omega)) (heq ▸ hholds j (by omega))
  omega

theorem table_bind (h : t.Mirrors l) {name : String} (hname : name ∈ l.liveNames) :
    (t.bind name).table = t := by
  obtain ⟨k, hk⟩ := AllocationLog.mem_liveNames.1 hname
  rw [bind, h.names_eq_some.2 ⟨k, hk, rfl⟩]

theorem bind (h : t.Mirrors l) (name : String) :
    (t.bind name).table.Mirrors (l.answer (.bind name)).2 :=
  (h.answer (.bind name)).2

theorem nameOf?_addressOf (h : t.Mirrors l) {i : Nat} {name : String}
    (hname : t.names[name]? = some i) : t.nameOf? (t.addressOf i) = some name := by
  have hslot := (h.holder name i).1 hname
  have hlt : i < t.capacity := by
    have := (Array.getElem?_eq_some_iff.1 hslot).1
    rw [h.filled, ← h.capacity] at this
    omega
  rw [nameOf?, slotOf?_eq_some.2 ⟨hlt, rfl⟩]
  exact hslot

/-- The address of a name gives the name back as soon as it is bound, whoever lost the slot. -/
theorem nameOf?_bind (h : t.Mirrors l) (name : String) :
    (t.bind name).table.nameOf? (t.bind name).address = some name := by
  have hafter := h.bind name
  cases hslot : t.names[name]? with
  | some i =>
      have hsame : t.bind name = ⟨t.addressOf i, none, t⟩ := by
        simp only [SyntheticTable.bind, hslot]
      rw [hsame]
      exact h.nameOf?_addressOf hslot
  | none =>
      have hnew : t.bind name = t.allocate name := by simp only [SyntheticTable.bind, hslot]
      rw [hnew] at hafter ⊢
      have haddress : (t.allocate name).address = (t.allocate name).table.addressOf t.cursor := by
        rw [address_allocate, addressOf, addressOf, block_allocate]
      rw [haddress]
      exact hafter.nameOf?_addressOf (by rw [names_allocate, if_pos rfl])

end Mirrors

/-- A table is a window on the list of its allocations. Every run of questions is answered as from
that list, and after it the last `capacity` names are different, are all the names of the table,
and have the addresses their numbers say; asking for one of them changes nothing. -/
theorem runAll_answer_eq_log (block : UInt8) (capacity : Nat) (calls : List TableCall) :
    let c := max 1 (min capacity 0xffffff)
    let run := runAll answer (new block capacity) calls
    let reference := runAll AllocationLog.answer ⟨block, c, []⟩ calls
    let t := run.2
    let l := reference.2
    run.1 = reference.1 ∧ l.liveNames.Nodup ∧ l.liveNames.length = min l.names.length c ∧
      t.size = min l.names.length c ∧
      (∀ a name, t.nameOf? a = some name ↔
        ∃ k, l.names.length ≤ k + c ∧ l.names[k]? = some name ∧ l.address k = a) ∧
      (∀ k, (l.address k).octets = block :: Bytes.toBigEndian 3 (k % c + 1) ∧
        (l.address k).hostPart ≠ 0) ∧
      ∀ name ∈ l.liveNames, (t.bind name).table = t := by
  intro c run reference t l
  have keeps (t : SyntheticTable) (l : AllocationLog) (call : TableCall)
      (h : t.Mirrors l ∧ l.block = block ∧ l.capacity = c) :
      (t.answer call).1 = (l.answer call).1 ∧ (t.answer call).2.Mirrors (l.answer call).2 ∧
        (l.answer call).2.block = block ∧ (l.answer call).2.capacity = c :=
    ⟨(h.1.answer call).1, (h.1.answer call).2, by rw [AllocationLog.block_answer, h.2.1],
      by rw [AllocationLog.capacity_answer, h.2.2]⟩
  obtain ⟨hanswers, h, hblock, hcapacity⟩ :=
    runAll_simulation keeps ⟨Mirrors.empty block capacity, rfl, rfl⟩ calls
  refine ⟨hanswers, h.nodup_liveNames, ?_, ?_, ?_, ?_, fun name => h.table_bind⟩
  · rw [AllocationLog.length_liveNames, hcapacity]
  · rw [h.size, hcapacity]
  · intro a name
    have hiff : t.nameOf? a = some name ↔ ∃ k, l.Holds k name ∧ l.address k = a :=
      h.nameOf?_eq_some
    have hc : l.capacity = c := hcapacity
    simpa only [AllocationLog.Holds, and_assoc, hc] using hiff
  · intro k
    have hhost := AllocationLog.hostPart_address h.capacity_pos h.capacity_lt k
    refine ⟨?_, by rw [hhost]; exact Nat.succ_ne_zero _⟩
    rw [AllocationLog.address, Ipv4.octets_ofOctets (by simp), hblock, hcapacity]

end SyntheticTable

end Egress
