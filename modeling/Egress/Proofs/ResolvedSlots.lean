import Egress.Proofs.StoredAddresses
import Egress.Rehearsal

/-!
What a resolve callback is taken to have answered. Its number is a number of slots at most: of the
slots before it, as many as there are, those that hold an address count, in their order and with
the port that was asked for in place of their own. Nothing behind it counts, and without an address
the lookup has failed.
-/

namespace Egress.Embedding

open SocketAddr

/-- The addresses that slots hold, one after the other and each with this port instead of its own.
All else of an IPv6 address stays, and a slot that holds no address is passed over. -/
inductive Collected (port : UInt16) : List Storage → List SocketAddr → Prop
  | nil : Collected port [] []
  | v4 {slot : Storage} {a : SocketAddr4} {slots : List Storage} {found : List SocketAddr}
      (h : slot.Holds (.v4 a)) (rest : Collected port slots found) :
      Collected port (slot :: slots) (.v4 { ip := a.ip, port } :: found)
  | v6 {slot : Storage} {a : SocketAddr6} {slots : List Storage} {found : List SocketAddr}
      (h : slot.Holds (.v6 a)) (rest : Collected port slots found) :
      Collected port (slot :: slots)
        (.v6 { ip := a.ip, port, flow := a.flow, scope := a.scope } :: found)
  | skipped {slot : Storage} {slots : List Storage} {found : List SocketAddr}
      (h : ∀ a, ¬slot.Holds a) (rest : Collected port slots found) :
      Collected port (slot :: slots) found

/-- All of a storage is in use when an address is looked for in it. -/
theorem decode_slot_eq_ok {slot : Storage} {a : SocketAddr} :
    decode slot 128 = .ok a ↔ slot.Holds a := by
  rw [decode_eq_ok_iff, and_iff_left]
  rw [length_encode]
  split <;> decide

namespace ResolveReply

theorem slotAddress_of_held {slot : Storage} {a : SocketAddr} (h : slot.Holds a) (port : UInt16) :
    slotAddress port slot = some (a.withPort port) := by
  simp only [slotAddress, decode_slot_eq_ok.2 h]

theorem slotAddress_of_skipped {slot : Storage} (h : ∀ a, ¬slot.Holds a) (port : UInt16) :
    slotAddress port slot = none := by
  cases hdecode : decode slot 128 with
  | ok a => exact absurd (decode_slot_eq_ok.1 hdecode) (h a)
  | error family => simp only [slotAddress, hdecode]

end ResolveReply

open ResolveReply

theorem Collected.filterMap_eq {port : UInt16} {slots : List Storage} {found : List SocketAddr}
    (h : Collected port slots found) : slots.filterMap (slotAddress port) = found := by
  induction h with
  | nil => rfl
  | v4 hslot _ ih | v6 hslot _ ih =>
      rw [List.filterMap_cons_some (slotAddress_of_held hslot port), ih]
      rfl
  | skipped hslot _ ih => rw [List.filterMap_cons_none (slotAddress_of_skipped hslot port), ih]

theorem exists_collected (port : UInt16) (slots : List Storage) :
    ∃ found, Collected port slots found := by
  induction slots with
  | nil => exact ⟨[], .nil⟩
  | cons slot slots ih =>
      obtain ⟨found, hfound⟩ := ih
      by_cases hslot : ∃ a, slot.Holds a
      · obtain ⟨a | a, ha⟩ := hslot
        · exact ⟨_, .v4 ha hfound⟩
        · exact ⟨_, .v6 ha hfound⟩
      · exact ⟨found, .skipped (not_exists.1 hslot) hfound⟩

theorem Collected.eq_nil_iff {port : UInt16} {slots : List Storage} {found : List SocketAddr}
    (h : Collected port slots found) : found = [] ↔ ∀ slot ∈ slots, ∀ a, ¬slot.Holds a := by
  induction h with
  | nil => simp
  | v4 hslot _ _ | v6 hslot _ _ =>
      refine iff_of_false (List.cons_ne_nil _ _) fun hnone => ?_
      exact hnone _ List.mem_cons_self _ hslot
  | skipped hslot _ ih => rw [ih, List.forall_mem_cons, and_iff_right hslot]

namespace ResolveReply

variable (r : ResolveReply)

/-- The slots that count: as many as the callback says, if there are so many. -/
def used : List Storage := r.slots.toList.take (min r.written.toNat maxSlots)

theorem take_written : r.slots.toList.take r.written.toNat = r.used := by
  rw [List.take_eq_take_min, Vector.length_toList, used]

/-- The slots that count are all that the answer depends on, besides the sign of the number. -/
theorem answer_eq {port : UInt16} {found : List SocketAddr} (h : Collected port r.used found) :
    r.answer port =
      if r.written < 0 then .error (.lookupFailed "resolve callback reported failure")
      else if found = [] then .error (.lookupFailed "no addresses")
      else .ok found := by
  rw [answer, take_written, h.filterMap_eq]
  cases found <;> rfl

theorem answer_eq_ok_iff {port : UInt16} {addresses : List SocketAddr} :
    r.answer port = .ok addresses ↔
      0 ≤ r.written ∧ addresses ≠ [] ∧ Collected port r.used addresses := by
  constructor
  · intro h
    obtain ⟨found, hfound⟩ := exists_collected port r.used
    rw [r.answer_eq hfound] at h
    split at h
    · cases h
    · rename_i hwritten
      split at h
      · cases h
      · rename_i hne
        obtain rfl := Except.ok.inj h
        exact ⟨Int.not_lt.1 hwritten, hne, hfound⟩
  · rintro ⟨hwritten, hne, hfound⟩
    rw [r.answer_eq hfound, if_neg (Int.not_lt.2 hwritten), if_neg hne]

theorem answer_eq_lookupFailed_iff {port : UInt16} :
    (∃ reason, r.answer port = .error (.lookupFailed reason)) ↔
      r.written < 0 ∨ ∀ slot ∈ r.used, ∀ a, ¬slot.Holds a := by
  obtain ⟨found, hfound⟩ := exists_collected port r.used
  rw [r.answer_eq hfound, ← hfound.eq_nil_iff]
  split
  · rename_i hwritten
    exact iff_of_true ⟨_, rfl⟩ (.inl hwritten)
  · rename_i hwritten
    split
    · rename_i hnone
      exact iff_of_true ⟨_, rfl⟩ (.inr hnone)
    · rename_i hne
      exact iff_of_false nofun (not_or.2 ⟨hwritten, hne⟩)

/-- Slots that do not count may hold anything. -/
theorem answer_congr {r r' : ResolveReply} (hwritten : r.written = r'.written)
    (hslots : ∀ i (h : i < maxSlots), (i : Int) < r.written → r.slots[i] = r'.slots[i])
    (port : UInt16) : r.answer port = r'.answer port := by
  have hused : r.used = r'.used := by
    refine List.ext_getElem ?_ fun i hi _ => ?_
    · simp only [used, List.length_take, Vector.length_toList, hwritten]
    · simp only [used, List.length_take, Vector.length_toList] at hi
      simp only [used, List.getElem_take, Vector.getElem_toList]
      exact hslots i (by omega) (by omega)
  obtain ⟨found, hfound⟩ := exists_collected port r.used
  rw [r.answer_eq hfound, r'.answer_eq (hused ▸ hfound), hwritten]

end ResolveReply

theorem resolve_of_sendable {κ : Type} [ResolveCallback κ] (callback : κ) (now : Nat)
    {host : String} (h : '\x00' ∉ host.toList) (port : UInt16) :
    Resolver.resolve (⟨some callback⟩ : CallbackResolver κ) now host port =
      ((ResolveCallback.resolve callback host port).1.answer port,
        ⟨some (ResolveCallback.resolve callback host port).2⟩) := by
  simp only [Resolver.resolve, if_neg h]

/-- A host with a NUL is refused without a question. For any other the callback is asked once.
Whatever it does, the answer is the addresses in the slots that count, in their order and with the
port that was asked for instead of their own. The lookup has failed exactly if the callback returned
a negative number or none of these slots holds an address, and what stands in other slots makes no
difference. -/
theorem resolve_collects {κ : Type} [ResolveCallback κ] (callback : κ) (now : Nat) (host : String)
    (port : UInt16) :
    let resolver : CallbackResolver κ := ⟨some callback⟩
    let resolved := Resolver.resolve resolver now host port
    let asked := ResolveCallback.resolve callback host port
    let slots := asked.1.slots.toList.take (min asked.1.written.toNat 8)
    ('\x00' ∈ host.toList → resolved = (.error .unsupported, resolver)) ∧
    ('\x00' ∉ host.toList → resolved.2 = ⟨some asked.2⟩ ∧
      (∀ addresses, resolved.1 = .ok addresses ↔
        0 ≤ asked.1.written ∧ addresses ≠ [] ∧ Collected port slots addresses) ∧
      ((∃ reason, resolved.1 = .error (.lookupFailed reason)) ↔
        asked.1.written < 0 ∨ ∀ slot ∈ slots, ∀ a, ¬slot.Holds a) ∧
      ∀ other : κ, let reply := (ResolveCallback.resolve other host port).1
        reply.written = asked.1.written →
        (∀ (i : Nat) (h : i < 8), i < reply.written → reply.slots[i] = asked.1.slots[i]) →
        (Resolver.resolve (⟨some other⟩ : CallbackResolver κ) now host port).1 = resolved.1) := by
  intro resolver resolved asked slots
  refine ⟨fun hnul => ?_, fun hnul => ?_⟩
  · simp only [resolved, resolver, Resolver.resolve, if_pos hnul]
  · simp only [resolved, resolver, resolve_of_sendable _ now hnul port]
    exact ⟨rfl, fun addresses => asked.1.answer_eq_ok_iff, asked.1.answer_eq_lookupFailed_iff,
      fun other hwritten hslots => answer_congr hwritten hslots port⟩

/-- Four slots count and the second is of another family, so the fifth is not seen and the others
are: an IPv6 address with its flow information and scope, and an IPv4 address twice. -/
theorem resolve_collects_skipping :
    let six : SocketAddr6 := {
      ip := .ofGroups [0x2001, 0xdb8, 0, 0, 0, 0, 0, 7], port := 1, flow := 5, scope := 3 }
    let four : SocketAddr4 := ⟨.of 192 0 2 9, 2⟩
    let slots := [encode (v6 six), [1, 0, 9], encode (v4 four), encode (v4 four), encode (v6 six)]
    let callback : Rehearsal.Directory (UInt16 → ResolveReply) := ⟨[], fun _ => .ofBytes 4 slots, []⟩
    (Resolver.resolve (⟨some callback⟩ : CallbackResolver _) 0 "a.test" 443).1 = .ok [
      .v6 { ip := .ofGroups [0x2001, 0xdb8, 0, 0, 0, 0, 0, 7], port := 443, flow := 5, scope := 3 },
      .v4 ⟨.of 192 0 2 9, 443⟩, .v4 ⟨.of 192 0 2 9, 443⟩] := by
  intro six four slots callback
  have hnul : '\x00' ∉ "a.test".toList := by decide
  have hholds (a : SocketAddr) : (Storage.ofBytes (encode a)).Holds a :=
    (startsWith_encode List.prefix_rfl).holds
  have hforeign (a : SocketAddr) : ¬(Storage.ofBytes [1, 0, 9]).Holds a := by
    have hfamily : family (.ofBytes [1, 0, 9]) = 1 := by decide
    intro h
    cases a with
    | v4 a => exact absurd (hfamily.symm.trans (Storage.family_of_holds_v4 h)) (by decide)
    | v6 a => exact absurd (hfamily.symm.trans (Storage.family_of_holds_v6 h)) (by decide)
  obtain ⟨-, hanswer, -, -⟩ := (resolve_collects callback 0 "a.test" 443).2 hnul
  refine (hanswer _).2 ⟨by decide, List.cons_ne_nil _ _, ?_⟩
  have hfour {found : List SocketAddr} {slots : List Storage} (h : Collected 443 slots found) :
      Collected 443 (.ofBytes (encode (v4 four)) :: slots) (v4 ⟨.of 192 0 2 9, 443⟩ :: found) :=
    .v4 (a := four) (hholds (v4 four)) h
  exact .v6 (a := six) (hholds (v6 six)) (.skipped hforeign (hfour (hfour .nil)))

end Egress.Embedding
