import Egress.Ip.V4
import Std.Data.HashMap

/-!
Synthetic addresses: stand-ins for names that only the proxy or a later lookup resolves. The name in
slot `i` has the address with host part `i + 1` in the table's block, so host part 0 is never given
out. Slots are filled in rotation; a full table gives the slot of the oldest name to a new one.
-/

namespace Egress

structure SyntheticTable where
  block : UInt8
  capacity : Nat
  names : Std.HashMap String Nat := ∅
  slots : Array String := #[]
  cursor : Nat := 0
  capacity_pos : 0 < capacity
  capacity_lt : capacity < 0x1000000

namespace SyntheticTable

def defaultBlock : UInt8 := 240

def maxCapacity : Nat := 0xffffff

/-- An empty table; a capacity out of range is replaced by the nearest one in range. -/
def new (block : UInt8) (capacity : Nat) : SyntheticTable where
  block
  capacity := max 1 (min capacity maxCapacity)
  capacity_pos := by omega
  capacity_lt := by simp only [maxCapacity]; omega

structure Eviction where
  name : String
  slot : Nat
deriving DecidableEq, Repr

structure Binding where
  address : Ipv4
  evicted : Option Eviction
  table : SyntheticTable

def size (t : SyntheticTable) : Nat := t.names.size

def isEmpty (t : SyntheticTable) : Bool := t.size == 0

def addressOf (t : SyntheticTable) (slot : Nat) : Ipv4 :=
  Ipv4.ofNat (t.block.toNat * 0x1000000 + (slot + 1) % 0x1000000)

def isSynthetic (t : SyntheticTable) (a : Ipv4) : Bool := a.block == t.block

def slotOf? (t : SyntheticTable) (a : Ipv4) : Option Nat :=
  if t.isSynthetic a ∧ 0 < a.hostPart ∧ a.hostPart ≤ t.capacity then some (a.hostPart - 1)
  else none

def nameOf? (t : SyntheticTable) (a : Ipv4) : Option String := do
  t.slots[← t.slotOf? a]?

/-- Gives the slot at the cursor to a name and moves the cursor on. -/
def allocate (t : SyntheticTable) (name : String) : Binding :=
  let slot := t.cursor
  let next := (slot + 1) % t.capacity
  match t.slots[slot]? with
  | none => {
      address := t.addressOf slot
      evicted := none
      table := { t with
        names := t.names.insert name slot
        slots := t.slots.push name
        cursor := next } }
  | some old => {
      address := t.addressOf slot
      evicted := some ⟨old, slot⟩
      table := { t with
        names := (t.names.erase old).insert name slot
        slots := t.slots.setIfInBounds slot name
        cursor := next } }

/-- The address of a name, which is bound first if it is not. -/
def bind (t : SyntheticTable) (name : String) : Binding :=
  match t.names[name]? with
  | some slot => ⟨t.addressOf slot, none, t⟩
  | none => t.allocate name

end SyntheticTable

end Egress
