import Egress.Proofs.EmbeddedRun

/-!
A name through the embedding interface and back. Its address is written out as a number and handed
in again after any calls; as long as fewer names were bound since than the table has room for, the
name comes back byte for byte, cut off before the last byte of a buffer that is too small.
-/

namespace Egress

/-- How many names of a list come after the last one that is this. -/
def since (name : String) (names : List String) : Nat :=
  (names.reverse.takeWhile (· != name)).length

theorem since_eq {name : String} {front back : List String} (h : name ∉ back) :
    since name (front ++ name :: back) = back.length := by
  have hback : ∀ other ∈ back.reverse, (other != name) = true := by
    intro other hother
    rw [bne_iff_ne]
    rintro rfl
    exact h (List.mem_reverse.1 hother)
  rw [since, List.reverse_append, List.reverse_cons, List.append_assoc,
    List.takeWhile_append_of_pos hback]
  simp

theorem since_le (name : String) (names : List String) : since name names ≤ names.length := by
  have h := (List.takeWhile_prefix (· != name) (l := names.reverse)).length_le
  rwa [List.length_reverse] at h

namespace SyntheticTable.Mirrors

variable {t : SyntheticTable} {l : AllocationLog}

/-- A live name was not allocated again after its own allocation. -/
theorem since_of_holds (h : t.Mirrors l) {k : Nat} {name : String} (hk : l.Holds k name) :
    k + 1 + since name l.names = l.names.length := by
  obtain ⟨hlt, hget⟩ := List.getElem?_eq_some_iff.1 hk.2
  have hsplit : l.names = l.names.take k ++ name :: l.names.drop (k + 1) := by
    rw [← hget, ← List.drop_eq_getElem_cons hlt, List.take_append_drop]
  have hlast : name ∉ l.names.drop (k + 1) := by
    intro hmem
    obtain ⟨i, hi⟩ := List.mem_iff_getElem?.1 hmem
    rw [List.getElem?_drop] at hi
    have hlive := hk.1
    have := h.holds_unique hk ⟨by omega, hi⟩
    omega
  have hsince : since name l.names = (l.names.drop (k + 1)).length := by
    conv => lhs; rw [hsplit]
    exact since_eq hlast
  rw [hsince, List.length_drop]
  omega

/-- A binding outlives fewer allocations than the table has slots. -/
theorem nameOf?_of_few (h : t.Mirrors l) {a : Ipv4} {name : String}
    (hname : t.nameOf? a = some name) {later : List String}
    (hfew : since name l.names + later.length < l.capacity) {t' : SyntheticTable}
    (h' : t'.Mirrors { l with names := l.names ++ later }) :
    t'.nameOf? a = some name := by
  obtain ⟨k, hk, rfl⟩ := h.nameOf?_eq_some.1 hname
  have hsince := h.since_of_holds hk
  refine h'.nameOf?_eq_some.2 ⟨k, ⟨?_, ?_⟩, rfl⟩
  · simp only [List.length_append]
    omega
  · rw [List.getElem?_append_left (by omega)]
    exact hk.2

end SyntheticTable.Mirrors

namespace Embedding

theorem fillBuffer_of_room {value : String} {buffer : List UInt8}
    (h : (Text.bytes value).length + 1 ≤ buffer.length) :
    fillBuffer value buffer = (true,
      Text.bytes value ++ 0 :: buffer.drop ((Text.bytes value).length + 1)) := by
  cases buffer with
  | nil => cases h
  | cons byte room =>
      have hle : (Text.bytes value).length ≤ room.length := Nat.le_of_succ_le_succ h
      rw [fillBuffer, List.take_of_length_le hle, decide_eq_true hle]

theorem fillBuffer_of_short {value : String} {buffer : List UInt8}
    (h : buffer.length ≤ (Text.bytes value).length) :
    (fillBuffer value buffer).1 = false ∧ (1 ≤ buffer.length → (fillBuffer value buffer).2 =
      (Text.bytes value).take (buffer.length - 1) ++ [0]) := by
  cases buffer with
  | nil => exact ⟨rfl, nofun⟩
  | cons byte room =>
      have hlt : room.length < (Text.bytes value).length := h
      refine ⟨decide_eq_false (Nat.not_le_of_lt hlt), fun _ => ?_⟩
      simp [fillBuffer, Nat.min_eq_left (Nat.le_of_lt hlt)]

namespace Embedded

variable {κ l ν : Type}

/-- How many names the table has room for, if there is a router. -/
def capacity (e : Embedded κ l ν) : Nat := (e.router.map (·.table.capacity)).getD 0

theorem reverseNumber_of_named {e : Embedded κ l ν} {r : Router} (h : e.router = some r)
    {address : SocketAddr4} {name : String} (hname : r.table.nameOf? address.ip = some name)
    (buffer : Option (List UInt8)) :
    e.reverseNumber (written address).inetNumber buffer =
      match buffer with
      | none => (.overflow, none)
      | some buffer =>
          (if (fillBuffer name buffer).1 then .found else .overflow,
            some (fillBuffer name buffer).2) := by
  have hbound : (e.session?.bind fun s => s.reverseName address.ip) = some name := by
    rw [session?_eq_some h]
    exact hname
  have haddress : SocketAddr.ofInetNumber (written address).inetNumber = address.ip :=
    SocketAddr.ofInetNumber_inetNumber address
  cases buffer <;> simp only [reverseNumber, haddress, reverseName, hbound]

variable [PolicyCallback κ] [ResolveCallback l] [NameService ν]

/-- A name that was resolved is bound to its address after any calls, as long as fewer names were
bound after it than the table has room for. -/
theorem nameOf?_after_resolved (processName : String) (config : Option Config)
    (policy : Hook κ) (resolver : Hook l) (world : World Unit ν) (earlier later : List (Call κ l ν))
    {bytes : List UInt8} {name : String} (hname : Text.ofBytes? bytes = some name)
    (service : CString) (number : Nat) {address : SocketAddr4} :
    let made := create processName config policy resolver world
    let asked := earlier ++ [.resolveName (some bytes) service number true]
    ((made.run earlier).resolveName (some bytes) service number true).1 = some address →
    since name (made.bound asked) + ((made.run asked).bound later).length < made.capacity →
    ∃ r, (made.run (asked ++ later)).router = some r ∧ r.table.nameOf? address.ip = some name := by
  intro made asked hanswer hfew
  obtain ⟨before, -, hbefore, -⟩ := resolveName_eq_some hanswer
  cases hmade : made.router with
  | none =>
      rw [router_run_of_none hmade] at hbefore
      cases hbefore
  | some first =>
      -- The log starts empty, so it lists what the run has bound.
      have hempty : first.table.Mirrors ⟨first.table.block, first.table.capacity, []⟩ := by
        rw [router_create processName config policy resolver world hmade]
        exact .empty _ _
      have hcapacity : made.capacity = first.table.capacity := by
        rw [capacity, hmade, Option.map_some, Option.getD_some]
      obtain ⟨r, hr, hmirrors, -⟩ := mirrors_run hmade hempty earlier
      obtain ⟨r', text, hresolved, htext, hheld⟩ := nameOf?_of_resolved hr hmirrors hanswer
      obtain rfl : name = text := Option.some.inj (hname.symm.trans htext)
      obtain ⟨held, hasked, hlog, -⟩ := mirrors_run hmade hempty asked
      obtain rfl : r' = held := by
        rw [run_append] at hasked
        exact Option.some.inj (hresolved.symm.trans hasked)
      obtain ⟨last, hlast, hall, -⟩ := mirrors_run hasked hlog later
      refine ⟨last, by rw [run_append, hlast], hlog.nameOf?_of_few hheld ?_ hall⟩
      rw [List.nil_append, ← hcapacity]
      exact hfew

/-- A name that was resolved through the embedding interface comes back from the number its address
is handed in as, whatever was called since, as long as fewer names were bound after it than the
table has room for. The buffer gets the name and a NUL, or as much of it as fits before a NUL. -/
theorem reverseNumber_of_resolved (processName : String) (config : Option Config)
    (policy : Hook κ) (resolver : Hook l) (world : World Unit ν) (earlier later : List (Call κ l ν))
    {bytes : List UInt8} {name : String} (hname : Text.ofBytes? bytes = some name)
    (service : CString) (number : Nat) {address : SocketAddr4} :
    let made := create processName config policy resolver world
    let asked := earlier ++ [.resolveName (some bytes) service number true]
    let e := made.run (asked ++ later)
    let stored := (written address).inetNumber
    ((made.run earlier).resolveName (some bytes) service number true).1 = some address →
    since name (made.bound asked) + ((made.run asked).bound later).length < made.capacity →
    (∀ buffer : List UInt8, bytes.length + 1 ≤ buffer.length →
      e.reverseNumber stored (some buffer) =
        (.found, some (bytes ++ 0 :: buffer.drop (bytes.length + 1)))) ∧
    (∀ buffer : List UInt8, buffer.length ≤ bytes.length →
      (e.reverseNumber stored (some buffer)).1 = .overflow ∧
        (1 ≤ buffer.length → (e.reverseNumber stored (some buffer)).2 =
          some (bytes.take (buffer.length - 1) ++ [0]))) ∧
    e.reverseNumber stored none = (.overflow, none) := by
  intro made asked e stored hanswer hfew
  have hbytes : Text.bytes name = bytes := Text.bytes_of_ofBytes? hname
  obtain ⟨last, hrouter, hstill⟩ := nameOf?_after_resolved processName config policy resolver world
    earlier later hname service number hanswer hfew
  refine ⟨fun buffer hroom => ?_, fun buffer hshort => ?_, ?_⟩
  · rw [← hbytes] at hroom ⊢
    rw [reverseNumber_of_named hrouter hstill]
    simp only [fillBuffer_of_room hroom, if_true]
  · rw [← hbytes] at hshort ⊢
    obtain ⟨hcut, hfilled⟩ := fillBuffer_of_short hshort
    rw [reverseNumber_of_named hrouter hstill]
    refine ⟨by simp only [hcut, Bool.false_eq_true, if_false], fun hroom => ?_⟩
    exact congrArg some (hfilled hroom)
  · exact reverseNumber_of_named hrouter hstill none

/-- A name comes back after another one was bound. The buffer that it fits exactly is followed by
nothing, and one byte less cuts it off. -/
theorem reverseNumber_of_resolved_filled :
    let made := rehearsed 240
    let asked := .resolveName (some (Text.bytes "a.test")) none 0 true
    let e := made.run ([asked] ++ [.routeName (some (Text.bytes "b.test")) 443])
    let stored := (written ⟨.of 240 0 0 1, 0⟩).inetNumber
    (made.resolveName (some (Text.bytes "a.test")) none 0 true).1 = some ⟨.of 240 0 0 1, 0⟩ ∧
      since "a.test" (made.bound [asked]) +
        ((made.run [asked]).bound [.routeName (some (Text.bytes "b.test")) 443]).length <
          made.capacity ∧
      e.reverseNumber stored (some (List.replicate 8 1)) =
        (.found, some (Text.bytes "a.test" ++ [0, 1])) ∧
      (e.reverseNumber stored (some (List.replicate 6 1))).1 = .overflow ∧
      (e.reverseNumber stored (some (List.replicate 6 1))).2 =
        some (Text.bytes "a.tes" ++ [0]) := by
  intro made asked e stored
  have hname : Text.ofBytes? (Text.bytes "a.test") = some "a.test" := by decide +kernel
  have hanswer : (made.resolveName (some (Text.bytes "a.test")) none 0 true).1 =
      some ⟨.of 240 0 0 1, 0⟩ := resolveName_rehearsed (by decide)
  have hfew : since "a.test" (made.bound [asked]) +
      ((made.run [asked]).bound [.routeName (some (Text.bytes "b.test")) 443]).length <
        made.capacity := by
    have hempty : (SyntheticTable.new 240 SyntheticTable.maxCapacity).Mirrors _ := .empty _ _
    obtain ⟨r, hr, hmirrors, hasked⟩ := mirrors_run (e := made) rfl hempty [asked]
    obtain ⟨-, -, -, hlater⟩ := mirrors_run hr hmirrors
      [.routeName (some (Text.bytes "b.test")) 443]
    have hsince := since_le "a.test" (made.bound [asked])
    have hcapacity : made.capacity = 16777215 := rfl
    simp only [List.length_singleton] at hasked hlater
    omega
  obtain ⟨hfits, hshort, -⟩ := reverseNumber_of_resolved "app"
    (some { Config.standard with block := 240 }) _ _ _ []
    [.routeName (some (Text.bytes "b.test")) 443] hname none 0 hanswer hfew
  obtain ⟨hcut, hfilled⟩ := hshort (List.replicate 6 1) (by decide +kernel)
  exact ⟨hanswer, hfew, hfits (List.replicate 8 1) (by decide +kernel), hcut,
    (hfilled (by decide)).trans (by decide +kernel)⟩

end Embedded

end Embedding

end Egress
