import Egress.Embedding.Interface
import Egress.Proofs.Eviction

/-!
Runs of an embedded router. Whatever the embedding program calls, in whatever world, the router goes
through what its own operations make of it, and its table grows by the names that the calls bind.
-/

namespace Egress

namespace SyntheticTable

/-- The names of a later table that an earlier one does not hold. -/
def added (earlier later : SyntheticTable) : List String :=
  later.slots.toList.filter fun name => !earlier.names.contains name

theorem filter_set {α : Type} {p : α → Bool} {xs : List α} {i : Nat} {x : α} (hi : i < xs.length)
    (hxs : ∀ y ∈ xs, p y = false) (hx : p x = true) : (xs.set i x).filter p = [x] := by
  have hnone {ys : List α} (h : ys ⊆ xs) : ys.filter p = [] := by
    rw [List.filter_eq_nil_iff]
    intro y hy
    rw [hxs y (h hy)]
    exact Bool.false_ne_true
  rw [List.set_eq_take_append_cons_drop, if_pos hi, List.filter_append, List.filter_cons, if_pos hx,
    hnone (List.take_subset i xs), hnone (List.drop_subset (i + 1) xs), List.nil_append]

namespace Mirrors

variable {t : SyntheticTable} {l : AllocationLog}

theorem contains_of_mem_slots (h : t.Mirrors l) {name : String} (hname : name ∈ t.slots.toList) :
    t.names.contains name = true := by
  obtain ⟨i, hi⟩ := List.mem_iff_getElem?.1 hname
  rw [Array.getElem?_toList, ← h.holder] at hi
  rw [Std.HashMap.contains_eq_isSome_getElem?, hi, Option.isSome_some]

theorem added_self (h : t.Mirrors l) : t.added t = [] := by
  rw [added, List.filter_eq_nil_iff]
  intro name hname
  simp only [h.contains_of_mem_slots hname, Bool.not_true, Bool.false_eq_true, not_false_eq_true]

theorem added_allocate (h : t.Mirrors l) {name : String} (hfree : t.names[name]? = none) :
    t.added (t.allocate name).table = [name] := by
  have hold : ∀ held ∈ t.slots.toList, (!t.names.contains held) = false := fun held hheld => by
    rw [h.contains_of_mem_slots hheld, Bool.not_true]
  have hnew : (!t.names.contains name) = true := by
    rw [Std.HashMap.contains_eq_isSome_getElem?, hfree, Option.isSome_none, Bool.not_false]
  cases hslot : t.slots[t.cursor]? with
  | none =>
      have hnone : t.slots.toList.filter (fun held => !t.names.contains held) = [] :=
        List.filter_eq_nil_iff.2 fun held hheld => by simp [hold held hheld]
      simp only [added, SyntheticTable.allocate, hslot, Array.toList_push, List.filter_append,
        hnone, List.filter_cons, hnew, if_true, List.filter_nil, List.nil_append]
  | some displaced =>
      have hlt : t.cursor < t.slots.toList.length := (Array.getElem?_eq_some_iff.1 hslot).1
      simp only [added, SyntheticTable.allocate, hslot, Array.toList_setIfInBounds]
      exact filter_set hlt hold hnew

theorem added_bind (h : t.Mirrors l) (name : String) :
    t.added (t.bind name).table = if t.names[name]? = none then [name] else [] := by
  cases hslot : t.names[name]? with
  | some slot =>
      have hsame : (t.bind name).table = t := by simp only [SyntheticTable.bind, hslot]
      rw [hsame, h.added_self]
      rfl
  | none =>
      have hnew : (t.bind name).table = (t.allocate name).table := by
        simp only [SyntheticTable.bind, hslot]
      rw [hnew, h.added_allocate hslot, if_pos rfl]

/-- A binding adds to the log what it adds to the table. -/
theorem grown (h : t.Mirrors l) (name : String) :
    (t.bind name).table.Mirrors { l with names := l.names ++ t.added (t.bind name).table } := by
  rw [h.added_bind]
  cases hslot : t.names[name]? with
  | some slot =>
      simpa only [SyntheticTable.bind, hslot, reduceCtorEq, if_false, List.append_nil] using h
  | none =>
      simpa only [SyntheticTable.bind, hslot, if_true, AllocationLog.push] using h.allocate hslot

end Mirrors

end SyntheticTable

namespace Embedding.Embedded

variable {κ l ν : Type}

theorem session?_eq_some {e : Embedded κ l ν} {r : Router} (h : e.router = some r) :
    e.session? = some ⟨r, e.world⟩ := by
  rw [session?, h, Option.map_some]

theorem session?_eq_none {e : Embedded κ l ν} (h : e.router = none) : e.session? = none := by
  rw [session?, h, Option.map_none]

/-- What becomes of an embedded router: calls, and anything else that changes its world, such as
time, peers, what callbacks answer, sinks, and calls about other routers. -/
inductive Call (κ l ν : Type)
  | connect (fd : Descriptor) (address : Option SocketAddr.Storage) (length : Nat)
  | resolveName (name service : CString) (intent : Nat) (writable : Bool)
  | routeName (name : CString) (port : UInt16)
  | reverseNumber (number : UInt32) (buffer : Option (List UInt8))
  | isSynthetic (address : Ipv4)
  | counters (writable : Bool)
  | elsewhere (world : World (Policy κ) (Names l ν))

section Step

variable [PolicyCallback κ] [ResolveCallback l] [NameService ν]

def perform (e : Embedded κ l ν) : Call κ l ν → Embedded κ l ν
  | .connect fd address length => (e.connect fd address length).2
  | .resolveName name service intent writable => (e.resolveName name service intent writable).2
  | .routeName name port => (e.routeName name port).2
  | .reverseNumber .. => e
  | .isSynthetic .. => e
  | .counters .. => e
  | .elsewhere world => { e with world }

def run (e : Embedded κ l ν) (calls : List (Call κ l ν)) : Embedded κ l ν := calls.foldl perform e

/-- A call leaves the router as it is, or does to it what an operation of the router's does. -/
theorem router_perform {e : Embedded κ l ν} {r : Router} (h : e.router = some r)
    (call : Call κ l ν) : (e.perform call).router = some r ∨ ∃ operation : Session.Call,
      (e.perform call).router =
        some ((⟨r, e.world⟩ : Session (Policy κ) (Names l ν)).after operation).router := by
  have hs := session?_eq_some h
  cases call with
  | connect fd address length =>
      simp only [perform, connect, hs]
      cases hdecoded : SocketAddr.decode? address length with
      | error family => exact .inl h
      | ok target =>
          refine .inr ⟨.connect fd target, ?_⟩
          simp only [Session.after]
          split <;> rename_i hrun <;> rw [hrun] <;> rfl
  | resolveName name service intentNumber writable =>
      simp only [perform, resolveName, hs]
      cases writable with
      | false => exact .inl h
      | true =>
          cases htext : name.text? with
          | none => exact .inl h
          | some text =>
              refine .inr ⟨.resolveName text service.text? (intent intentNumber), ?_⟩
              simp only [Session.after]
              split <;> rename_i hrun <;> rw [hrun] <;> rfl
  | routeName name port =>
      simp only [perform, routeName, hs]
      cases htext : name.text? with
      | none => exact .inl h
      | some text =>
          refine .inr ⟨.routeName text port, ?_⟩
          simp only [Session.after]
          split <;> rename_i hrun <;> rw [hrun] <;> rfl
  | reverseNumber number buffer => exact .inl h
  | isSynthetic address => exact .inl h
  | counters writable => exact .inl h
  | elsewhere world => exact .inl h

/-- What the operations of a router keep, runs of calls keep. -/
theorem run_keeps {P : Router → Prop}
    (keeps : ∀ r (world : World (Policy κ) (Names l ν)) operation, P r →
      P ((⟨r, world⟩ : Session (Policy κ) (Names l ν)).after operation).router)
    {e : Embedded κ l ν} {r : Router} (h : e.router = some r) (hr : P r)
    (calls : List (Call κ l ν)) : ∃ r', (e.run calls).router = some r' ∧ P r' := by
  induction calls generalizing e r with
  | nil => exact ⟨r, h, hr⟩
  | cons call calls ih =>
      rcases router_perform h call with hsame | ⟨operation, hafter⟩
      · exact ih hsame hr
      · exact ih hafter (keeps r e.world operation hr)

theorem run_append (e : Embedded κ l ν) (calls more : List (Call κ l ν)) :
    e.run (calls ++ more) = (e.run calls).run more := List.foldl_append

/-- The names that were bound on the way from one state to another, if there is a router. -/
def newNames (e next : Embedded κ l ν) : List String :=
  match e.router, next.router with
  | some r, some r' => r.table.added r'.table
  | _, _ => []

/-- The names a run of calls binds, in the order of their allocations. -/
def bound (e : Embedded κ l ν) : List (Call κ l ν) → List String
  | [] => []
  | call :: calls => e.newNames (e.perform call) ++ (e.perform call).bound calls

/-- A call binds one name at most. -/
theorem mirrors_perform {e : Embedded κ l ν} {r : Router} {log : AllocationLog}
    (h : e.router = some r) (hr : r.table.Mirrors log) (call : Call κ l ν) :
    ∃ r', (e.perform call).router = some r' ∧
      r'.table.Mirrors { log with names := log.names ++ e.newNames (e.perform call) } ∧
      (e.newNames (e.perform call)).length ≤ 1 := by
  rcases router_perform h call with hsame | ⟨operation, hafter⟩
  · refine ⟨r, hsame, ?_⟩
    rw [newNames, h, hsame]
    simp only [hr.added_self, List.append_nil]
    exact ⟨hr, Nat.zero_le 1⟩
  · refine ⟨_, hafter, ?_⟩
    rw [newNames, h, hafter]
    rcases Session.table_after ⟨r, e.world⟩ operation with htable | ⟨name, -, htable⟩
    · simp only [htable, hr.added_self, List.append_nil]
      exact ⟨hr, Nat.zero_le 1⟩
    · simp only [htable]
      refine ⟨hr.grown name, ?_⟩
      rw [hr.added_bind]
      split
      · exact Nat.le_refl 1
      · exact Nat.zero_le 1

/-- The table after a run is a window on the names it bound, no more than there were calls. -/
theorem mirrors_run {e : Embedded κ l ν} {r : Router} {log : AllocationLog}
    (h : e.router = some r) (hr : r.table.Mirrors log) (calls : List (Call κ l ν)) :
    ∃ r', (e.run calls).router = some r' ∧
      r'.table.Mirrors { log with names := log.names ++ e.bound calls } ∧
      (e.bound calls).length ≤ calls.length := by
  induction calls generalizing e r log with
  | nil =>
      refine ⟨r, h, ?_, Nat.le_refl 0⟩
      rw [bound, List.append_nil]
      exact hr
  | cons call calls ih =>
      obtain ⟨next, hnext, hmirrors, hone⟩ := mirrors_perform h hr call
      obtain ⟨last, hlast, hall, hmany⟩ := ih hnext hmirrors
      refine ⟨last, hlast, ?_, ?_⟩
      · rw [bound, ← List.append_assoc]
        exact hall
      · rw [bound, List.length_append, List.length_cons]
        omega

theorem router_run_of_none {e : Embedded κ l ν} (h : e.router = none) (calls : List (Call κ l ν)) :
    (e.run calls).router = none := by
  induction calls generalizing e with
  | nil => exact h
  | cons call calls ih =>
      refine ih ?_
      cases call <;> simp only [perform, connect, resolveName, routeName, session?_eq_none h, h]

end Step

/-- A router as it is made, if it could be. -/
theorem router_create (processName : String) (config : Option Config) (policy : Hook κ)
    (resolver : Hook l) (world : World Unit ν) {r : Router}
    (h : (create processName config policy resolver world).router = some r) :
    r = .new ((config.getD .standard).toRouterConfig processName) := by
  cases policy with
  | null => cases h
  | empty => cases h
  | installed callback => exact (Option.some.inj h).symm

/-- An address that is written out is one that a router resolved the name to. -/
theorem resolveName_eq_some {e : Embedded κ l ν} {name service : CString} {number : Nat}
    {writable : Bool} {address : SocketAddr4}
    (h : (e.resolveName name service number writable).1 = some address) :
    ∃ r text, e.router = some r ∧ name.text? = some text ∧
      let resolved := (⟨r, e.world⟩ : Session (Policy κ) (Names l ν)).resolveName text service.text?
        (intent number)
      resolved.1 = .synthetic address ∧
        (e.resolveName name service number writable).2 = after resolved.2 := by
  cases hrouter : e.router with
  | none =>
      simp only [resolveName, session?_eq_none hrouter] at h
      cases h
  | some r =>
      have hs := session?_eq_some hrouter
      cases writable with
      | false =>
          simp only [resolveName, hs] at h
          cases h
      | true =>
          cases htext : name.text? with
          | none =>
              simp only [resolveName, hs, htext] at h
              cases h
          | some text =>
              refine ⟨r, text, rfl, rfl, ?_⟩
              simp only [resolveName, hs, htext] at h ⊢
              split at h
              · cases h
              · rename_i hrun
                cases h
                rw [hrun]
                exact ⟨rfl, rfl⟩

/-- Binding a name that is resolved gives it the address that is written out. -/
theorem nameOf?_of_resolved {e : Embedded κ l ν} {r : Router} {log : AllocationLog}
    (hrouter : e.router = some r) (hmirrors : r.table.Mirrors log) {name service : CString}
    {number : Nat} {writable : Bool} {address : SocketAddr4}
    (h : (e.resolveName name service number writable).1 = some address) :
    ∃ r' text, (e.resolveName name service number writable).2.router = some r' ∧
      name.text? = some text ∧ r'.table.nameOf? address.ip = some text := by
  obtain ⟨found, text, hfound, htext, hanswer, hafter⟩ := resolveName_eq_some h
  obtain rfl := Option.some.inj (hrouter.symm.trans hfound)
  obtain ⟨haddress, htable⟩ := Session.resolveName_synthetic hanswer
  refine ⟨_, text, by rw [hafter]; rfl, htext, ?_⟩
  rw [htable, haddress]
  exact hmirrors.nameOf?_bind text

open Rehearsal in
/-- A router for a block in a rehearsed world, where the embedding program has a stream open. -/
def rehearsed (block : UInt8) : Embedded (Prompter PolicyReply)
    (Directory (UInt16 → ResolveReply)) (Directory (Except LookupFailure (List IpAddr))) :=
  create "app" (some { Config.standard with block })
    (.installed ⟨[], .ofBytes [] 0 false true, []⟩) .null {
      now := 0
      journal := { processId := 1 }
      network := (({} : Network).add {}).2
      resolver := ⟨[], .ok [], []⟩
      hostAnswer := none
      policy := () }

theorem resolveName_rehearsed {block : UInt8} (h : block ≠ 0) :
    ((rehearsed block).resolveName (some (Text.bytes "a.test")) none 0 true).1 =
      some ⟨.ofNat (block.toNat * 0x1000000 + 1), 0⟩ := by
  obtain ⟨r, hrouter⟩ : ∃ r, (rehearsed block).router = some r := ⟨_, rfl⟩
  have hs := session?_eq_some hrouter
  have htext : CString.text? (some (Text.bytes "a.test")) = some "a.test" := by decide +kernel
  have hroutable : Exemptions.coversName (rehearsed block).world.localName "a.test" = false := by
    change Exemptions.coversName none "a.test" = false
    decide +kernel
  have htable : r.table = .new block SyntheticTable.maxCapacity := by
    rw [router_create _ _ _ _ _ hrouter]
    simp [Router.new, Config.toRouterConfig, h, Config.standard, SyntheticTable.maxCapacity]
  have haddress : (r.table.bind "a.test").address = .ofNat (block.toNat * 0x1000000 + 1) := by
    simp [htable, SyntheticTable.bind, SyntheticTable.new, SyntheticTable.addressOf]
  obtain ⟨t, ht, -⟩ := Session.resolveName_of_routable
    (s := ⟨r, (rehearsed block).world⟩) hroutable none
  have hnone : CString.text? none = none := rfl
  simp only [resolveName, hs, htext, hnone, intent, ht, haddress]
  rfl

end Embedding.Embedded

end Egress
