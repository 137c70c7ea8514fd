import Egress.Proofs.Accounting
import Egress.Proofs.EmbeddedRun
import Egress.Proofs.ExemptNetworks
import Egress.Proofs.Swap
import Mathlib.Algebra.Group.Nat.Defs

/-!
Whether an embedded router leaves its own synthetic addresses alone. An address that a name was
resolved to is exempt if and only if it lies in a loopback or private network, which depends on the
block that the configuration asks for and on nothing else. Any other is connected by its name.
-/

namespace Egress

namespace Ipv4

/-- Under a mask of leading bits only those count. -/
theorem agree_leading {mask a b : Ipv4} {k : Nat} (h : mask.bits = BitVec.allOnes 32 <<< k) :
    agree mask a b = true ↔ a.toNat / 2 ^ k = b.toNat / 2 ^ k := by
  have hmask (i : Nat) : mask.bits.getLsbD i = (decide (i < 32) && decide (k ≤ i)) := by
    rw [h, BitVec.getLsbD_shiftLeft, BitVec.getLsbD_allOnes, Bool.eq_iff_iff]
    simp only [Bool.and_eq_true, Bool.not_eq_true', decide_eq_true_eq, decide_eq_false_iff_not]
    omega
  have hbit (x : Ipv4) (i : Nat) : x.bits.getLsbD i = x.toNat.testBit i := rfl
  simp only [agree_iff, hmask, hbit, Bool.and_eq_true, decide_eq_true_eq]
  constructor
  · intro hagree
    refine Nat.eq_of_testBit_eq fun i => ?_
    rw [Nat.testBit_div_two_pow, Nat.testBit_div_two_pow]
    by_cases hlt : i + k < 32
    · exact hagree (i + k) ⟨hlt, Nat.le_add_left k i⟩
    · have hbeyond (x : Ipv4) : x.toNat.testBit (i + k) = false :=
        BitVec.getLsbD_of_ge x.bits (i + k) (Nat.le_of_not_lt hlt)
      rw [hbeyond, hbeyond]
  · rintro hdiv i ⟨-, hle⟩
    have hi := congrArg (Nat.testBit · (i - k)) hdiv
    simp only [Nat.testBit_div_two_pow, Nat.sub_add_cancel hle] at hi
    exact hi

theorem toNat_eq (a : Ipv4) : a.toNat = a.block.toNat * 0x1000000 + a.hostPart := by
  rw [toNat_block, hostPart, Nat.mul_comm, Nat.div_add_mod]

end Ipv4

namespace Exemptions

/-- Loopback addresses and those of private networks. -/
def Private (a : Ipv4) : Prop :=
  a.block = 127 ∨ a.block = 10 ∨ (a.block = 172 ∧ a.hostPart / 0x100000 = 1) ∨
    (a.block = 192 ∧ a.hostPart / 0x10000 = 168)

instance (a : Ipv4) : Decidable (Private a) :=
  inferInstanceAs (Decidable (_ ∨ _ ∨ (_ ∧ _) ∨ (_ ∧ _)))

theorem standardIpv4_covers (a : Ipv4) (port : UInt16) :
    standardIpv4.any (·.covers a port) = true ↔ Private a := by
  have hloopback : Ipv4.agree (.of 255 0 0 0) a (.of 127 0 0 0) = true ↔ a.toNat / 2 ^ 24 = 127 :=
    Ipv4.agree_leading (by decide)
  have hlarge : Ipv4.agree (.of 255 0 0 0) a (.of 10 0 0 0) = true ↔ a.toNat / 2 ^ 24 = 10 :=
    Ipv4.agree_leading (by decide)
  have hmiddle : Ipv4.agree (.of 255 240 0 0) a (.of 172 16 0 0) = true ↔
      a.toNat / 2 ^ 20 = 172 * 16 + 1 := Ipv4.agree_leading (by decide)
  have hsmall : Ipv4.agree (.of 255 255 0 0) a (.of 192 168 0 0) = true ↔
      a.toNat / 2 ^ 16 = 192 * 256 + 168 := Ipv4.agree_leading (by decide)
  have hblock (b : UInt8) : a.block = b ↔ a.block.toNat = b.toNat := UInt8.toNat_inj.symm
  have hsplit := a.toNat_eq
  have hhost : a.hostPart < 0x1000000 := Nat.mod_lt _ (by decide)
  simp only [standardIpv4, List.any_cons, List.any_nil, Ipv4Exemption.covers, beq_self_eq_true,
    Bool.true_or, Bool.and_true, Bool.or_false, Bool.or_eq_true, hloopback, hlarge, hmiddle, hsmall,
    Private, hblock]
  have h127 : (127 : UInt8).toNat = 127 := rfl
  have h10 : (10 : UInt8).toNat = 10 := rfl
  have h172 : (172 : UInt8).toNat = 172 := rfl
  have h192 : (192 : UInt8).toNat = 192 := rfl
  omega

end Exemptions

/-- Where a socket was to connect to, and what its peer accepted. -/
def Socket.traffic (s : Socket) : List SocketAddr × List UInt8 := (s.targets, s.sent)

theorem Socket.exists_of_map_traffic {kept opened : List Socket}
    (hmap : kept.map traffic = opened.map traffic) {socket : Socket} (h : socket ∈ kept) :
    ∃ same ∈ opened, same.targets = socket.targets ∧ same.sent = socket.sent := by
  have hmem := List.mem_map_of_mem (f := traffic) h
  rw [hmap] at hmem
  obtain ⟨same, hsame, htraffic⟩ := List.mem_map.1 hmem
  exact ⟨same, hsame, congrArg Prod.fst htraffic, congrArg Prod.snd htraffic⟩

theorem SyntheticTable.block_bind (t : SyntheticTable) (name : String) :
    (t.bind name).table.block = t.block := by
  cases h : t.names[name]? <;> simp [bind, h]

namespace Session

variable {π ρ : Type} [PolicyEngine π] [Resolver ρ] (s : Session π ρ)

/-- No operation changes what is exempt. -/
theorem exemptions_after (call : Call) :
    (s.after call).router.exemptions = s.router.exemptions := by
  have hroute (target : SocketAddr) :
      (s.route target).2.router.exemptions = s.router.exemptions := by
    simp only [route]
    split <;> rfl
  have hdial (target : SocketAddr) :
      (s.dial target).2.router.exemptions = s.router.exemptions := by
    have hsame := hroute target
    unfold dial
    split <;> rename_i hrun <;> rw [hrun] at hsame
    · exact hsame
    · exact (congrArg Router.exemptions (router_dialAs _ _ _)).trans hsame
    · exact (congrArg Router.exemptions (router_dialAs _ _ _)).trans hsame
  cases call with
  | route target => exact hroute target
  | routeName name port =>
      simp only [after, routeName]
      split
      · exact hroute _
      · split <;> rfl
  | resolveName name service intent =>
      simp only [after, resolveName]
      split <;> rfl
  | reverseName address => rfl
  | dial target => exact hdial target
  | connect fd target =>
      cases hstream : s.world.network.isStream fd with
      | false => simp only [after, connect, hstream, Bool.false_eq_true, if_false]
      | true =>
          rw [after, (s.connect_frame hstream target).1]
          exact hdial target

/-- Putting a connection under a descriptor changes a flag of its socket at most. -/
theorem connect_sockets {fd : Descriptor} (hstream : s.world.network.isStream fd = true)
    {target : SocketAddr} {opened : List Socket}
    (h : (s.dial target).2.world.network.sockets = s.world.network.sockets ++ opened) :
    ∃ kept, (s.connect fd target).2.world.network.sockets = s.world.network.sockets ++ kept ∧
      kept.map Socket.traffic = opened.map Socket.traffic := by
  obtain ⟨held, hheld, -⟩ := (Option.any_eq_true _ _).1 hstream
  obtain ⟨outcome, t, hdial⟩ : ∃ outcome t, s.dial target = (outcome, t) := ⟨_, _, rfl⟩
  rw [hdial] at h
  simp only [connect, hstream, if_true, hdial]
  rcases s.dial_dials target with ⟨hnone, -⟩ | ⟨created, answer, hanswer, hdialed⟩
  · rw [hdial] at hnone
    obtain rfl := hnone
    exact ⟨opened, h, rfl⟩
  · rw [hdial] at hanswer hdialed
    obtain rfl := hanswer
    obtain rfl : opened = created := List.append_cancel_left (h.symm.trans hdialed.sockets)
    cases hdialed with
    | failed left => exact ⟨opened, h, rfl⟩
    | @handed k gone replacement handed left hopened joined nonblocking getFlag setFlag =>
        rcases t.swap_cases ((left.socketAt? fd).trans hheld) hopened nonblocking
          (left.faults ▸ getFlag) (left.faults ▸ setFlag) with
          ⟨errno, -, -, hclosed⟩ | ⟨-, htaken⟩
        · refine ⟨gone ++ [handed], ?_, rfl⟩
          exact hclosed.sockets.trans (by rw [left.sockets, List.append_assoc])
        · refine ⟨gone ++ [{ handed with nonblocking := held.nonblocking }], ?_, ?_⟩
          · exact htaken.sockets.trans (by rw [left.sockets, List.append_assoc])
          · rw [List.map_append, List.map_append]
            rfl

theorem resolver_connect {fd : Descriptor} (hstream : s.world.network.isStream fd = true)
    (target : SocketAddr) :
    (s.connect fd target).2.world.resolver = (s.dial target).2.world.resolver := by
  simp only [connect, hstream, if_true]
  split <;> rename_i hrun <;> rw [hrun]
  unfold swap
  split <;> rfl

/-- A connect is about no other name than its dial. -/
theorem DialedFor.connect {s : Session (RecordedPolicy π) (RecordedResolver ρ)} {fd : Descriptor}
    (hstream : s.world.network.isStream fd = true) {target : SocketAddr} {name : String}
    {port : UInt16} (h : s.DialedFor (s.dial target).2 name port) :
    s.DialedFor (s.connect fd target).2 name port := by
  have hpolicy := (s.connect_frame hstream target).2
  have hresolver := s.resolver_connect hstream target
  refine ⟨?_, fun hd => ?_, fun proxy hd => ?_⟩
  · rw [hpolicy]
    exact h.asked
  · obtain ⟨answer, opened, hnotes, hsockets, htargets⟩ := h.direct hd
    obtain ⟨kept, hkept, hmap⟩ := s.connect_sockets hstream hsockets
    refine ⟨answer, kept, by rw [hresolver, hnotes], hkept, fun socket hsocket => ?_⟩
    obtain ⟨same, hsame, hto, -⟩ := Socket.exists_of_map_traffic hmap hsocket
    rw [← hto]
    exact htargets same hsame
  · obtain ⟨opened, hnotes, hsockets, hone, htold⟩ := h.proxied proxy hd
    obtain ⟨kept, hkept, hmap⟩ := s.connect_sockets hstream hsockets
    have hlength : kept.length = opened.length := by
      simpa only [List.length_map] using congrArg List.length hmap
    refine ⟨kept, by rw [hresolver, hnotes], hkept, hlength ▸ hone, fun socket hsocket => ?_⟩
    obtain ⟨same, hsame, hto, hsent⟩ := Socket.exists_of_map_traffic hmap hsocket
    rw [← hto, ← hsent]
    exact htold same hsame

end Session

namespace Router

/-- A router that was made with this configuration, whatever it was asked since. -/
structure Configured (config : RouterConfig) (r : Router) : Prop where
  exemptions : r.exemptions = config.exemptions
  block : r.table.block = config.block
  reachable : r.Reachable

theorem Configured.after {π ρ : Type} [PolicyEngine π] [Resolver ρ] {config : RouterConfig}
    {r : Router} (h : r.Configured config) (world : World π ρ) (operation : Session.Call) :
    ((⟨r, world⟩ : Session π ρ).after operation).router.Configured config where
  exemptions := (Session.exemptions_after _ operation).trans h.exemptions
  block := by
    rcases Session.table_after (⟨r, world⟩ : Session π ρ) operation with hsame | ⟨name, -, hbind⟩
    · rw [hsame, h.block]
    · rw [hbind, SyntheticTable.block_bind, h.block]
  reachable := .call h.reachable world operation

end Router

namespace Embedding.Embedded

def ConnectStatus.ofVerdict : ConnectVerdict → ConnectStatus
  | .passthrough => .passthrough
  | .connected => .connected
  | .inProgress => .failed Errno.inProgress
  | .failed _ => .failed Errno.timedOut

theorem ConnectStatus.ofVerdict_eq_passthrough {verdict : ConnectVerdict} :
    ofVerdict verdict = .passthrough ↔ verdict = .passthrough := by
  cases verdict <;> simp [ofVerdict]

variable {κ l ν : Type} [PolicyCallback κ] [ResolveCallback l] [NameService ν]

theorem decode_written (address : SocketAddr4) :
    SocketAddr.decode? (some (written address)) 16 = .ok (.v4 address) := by
  have hstored := SocketAddr.startsWith_encode (List.prefix_refl (SocketAddr.encode (.v4 address)))
  simp only [SocketAddr.decode?, written, SocketAddr.decode_of_startsWith hstored
    (Nat.le_of_eq (SocketAddr.length_encode (.v4 address)))]

/-- A connect to an address that can be read is one of the router's. -/
theorem connect_of_decoded {e : Embedded κ l ν} {r : Router} (h : e.router = some r)
    (fd : Descriptor) {address : Option SocketAddr.Storage} {length : Nat} {target : SocketAddr}
    (hdecoded : SocketAddr.decode? address length = .ok target) :
    let connected := (⟨r, e.world⟩ : Session (Policy κ) (Names l ν)).connect fd target
    (e.connect fd address length).1 = .ofVerdict connected.1 ∧
      (e.connect fd address length).2.router = some connected.2.router ∧
      (e.connect fd address length).2.world.network = connected.2.world.network := by
  simp only [connect, session?_eq_some h, hdecoded]
  split <;> rename_i hrun <;> rw [hrun] <;> exact ⟨rfl, rfl, rfl⟩

/-- A stream is left to its owner if and only if the address is exempt. -/
theorem connect_written_iff {e : Embedded κ l ν} {r : Router} (h : e.router = some r)
    {fd : Descriptor} (hstream : e.world.network.isStream fd = true) (address : SocketAddr4) :
    (e.connect fd (some (written address)) 16).1 = .passthrough ↔
      r.exemptions.coversEndpoint (.normalize (.v4 address)) = true := by
  rw [(connect_of_decoded h fd (decode_written address)).1,
    ConnectStatus.ofVerdict_eq_passthrough, Session.connect_passthrough_iff _ hstream]

theorem configured_run (processName : String) (config : Option Config) (policy : Hook κ)
    (resolver : Hook l) (world : World Unit ν) (calls : List (Call κ l ν)) {r : Router}
    (h : ((create processName config policy resolver world).run calls).router = some r) :
    r.Configured ((config.getD .standard).toRouterConfig processName) := by
  cases hmade : (create processName config policy resolver world).router with
  | none =>
      rw [router_run_of_none hmade] at h
      cases h
  | some first =>
      have hfirst : first.Configured ((config.getD .standard).toRouterConfig processName) := by
        rw [router_create processName config policy resolver world hmade]
        exact ⟨rfl, rfl, .new _⟩
      obtain ⟨last, hlast, hconfigured⟩ :=
        run_keeps (fun _ world operation h => h.after world operation) hmade hfirst calls
      obtain rfl := Option.some.inj (h.symm.trans hlast)
      exact hconfigured

/-- An address that a name was resolved to is bound to it, lies in the configured block, and is
exempt if and only if it is a private one. -/
theorem resolved_run (processName : String) (config : Option Config) (policy : Hook κ)
    (resolver : Hook l) (world : World Unit ν) (calls : List (Call κ l ν))
    {name service : CString} {number : Nat} {writable : Bool} {address : SocketAddr4} :
    let resolved := ((create processName config policy resolver world).run calls).resolveName name
      service number writable
    resolved.1 = some address → ∃ text r, name.text? = some text ∧ resolved.2.router = some r ∧
      r.table.nameOf? address.ip = some text ∧
      address.ip.block = ((config.getD .standard).toRouterConfig processName).block ∧
      (r.exemptions.coversEndpoint (.normalize (.v4 address)) = true ↔
        Exemptions.Private address.ip) := by
  intro resolved hanswer
  obtain ⟨before, -, hbefore, -⟩ := resolveName_eq_some hanswer
  obtain ⟨-, -, hreachable⟩ := configured_run processName config policy resolver world calls hbefore
  obtain ⟨log, hmirrors⟩ := hreachable.mirrors
  obtain ⟨r, text, hr, htext, hbound⟩ := nameOf?_of_resolved hbefore hmirrors hanswer
  have hrun : ((create processName config policy resolver world).run
      (calls ++ [.resolveName name service number writable])).router = some r := by
    rw [run_append]
    exact hr
  have hconfigured := configured_run processName config policy resolver world _ hrun
  have hinside : address.ip.block = r.table.block := by
    simpa [SyntheticTable.isSynthetic] using SyntheticTable.isSynthetic_of_nameOf? hbound
  refine ⟨text, r, htext, hr, hbound, hinside.trans hconfigured.block, ?_⟩
  rw [hconfigured.exemptions, ← Exemptions.standardIpv4_covers address.ip address.port]
  rfl

/-- An address that a name was resolved to lies in the block the configuration asks for. A stream
that is connected to it is left to its owner if and only if the address is a loopback or private
one. Else it is connected, or fails to connect, by the name and nothing else. -/
theorem connect_of_resolved (processName : String) (config : Option Config) (policy : Hook κ)
    (resolver : Hook l) (world : World Unit ν) (calls : List (Call κ l ν))
    (name service : CString) (number : Nat) (writable : Bool) {address : SocketAddr4}
    (now : World (Policy κ) (Names l ν)) {fd : Descriptor} :
    let e := (create processName config policy resolver world).run calls
    let resolved := e.resolveName name service number writable
    let connected := { resolved.2 with world := now }.connect fd (some (written address)) 16
    resolved.1 = some address → now.network.isStream fd = true →
    address.ip.block = ((config.getD .standard).toRouterConfig processName).block ∧
      (connected.1 = .passthrough ↔ Exemptions.Private address.ip) ∧
      (¬Exemptions.Private address.ip → ∃ text r, name.text? = some text ∧
        resolved.2.router = some r ∧
        let s := (⟨r, now⟩ : Session (Policy κ) (Names l ν)).recorded
        let t := s.connect fd (.v4 address)
        connected.1 = .ofVerdict t.1 ∧ connected.2.router = some t.2.router ∧
          connected.2.world.network = t.2.world.network ∧ s.DialedFor t.2 text address.port) := by
  intro e resolved connected hanswer hstream
  obtain ⟨text, r, htext, hr, hbound, hblock, hcovers⟩ :=
    resolved_run processName config policy resolver world calls hanswer
  refine ⟨hblock, ?_, fun hprivate => ⟨text, r, htext, hr, ?_⟩⟩
  · rw [connect_written_iff (e := { resolved.2 with world := now }) hr hstream, hcovers]
  · let s := (⟨r, now⟩ : Session (Policy κ) (Names l ν))
    obtain ⟨hstatus, hrouter, hnetwork⟩ :=
      connect_of_decoded (e := { resolved.2 with world := now }) hr fd (decode_written address)
    have hbare : s.connect fd (.v4 address) = ((s.recorded.connect fd (.v4 address)).1,
        (s.recorded.connect fd (.v4 address)).2.bare) := s.recorded.connect_bare fd (.v4 address)
    rw [hbare] at hstatus hrouter hnetwork
    have hnot : s.recorded.router.exemptions.coversEndpoint (.normalize (.v4 address)) = false :=
      Bool.eq_false_iff.2 fun hcovered => hprivate (hcovers.1 hcovered)
    have hdialed : s.recorded.DialedFor (s.recorded.dial (.v4 address)).2 text address.port :=
      Session.dialedFor_dial rfl hnot hbound
    exact ⟨hstatus, hrouter, hnetwork, hdialed.connect hstream⟩

theorem isStream_rehearsed {block : UInt8} (h : block ≠ 0) :
    let resolved := (rehearsed block).resolveName (some (Text.bytes "a.test")) none 0 true
    resolved.2.world.network.isStream 1000 = true := by
  intro resolved
  obtain ⟨r, text, -, -, -, hafter⟩ := resolveName_eq_some (resolveName_rehearsed h)
  obtain ⟨journal, hworld⟩ :=
    (⟨r, (rehearsed block).world⟩ : Session _ _).world_resolveName text none (intent 0)
  have hsame : CString.text? none = none := rfl
  rw [show resolved.2 = _ from hafter, hsame, after, hworld]
  rfl

/-- In the standard block a name's address is connected by its name. -/
theorem connect_of_resolved_standard :
    let resolved := (rehearsed 240).resolveName (some (Text.bytes "a.test")) none 0 true
    resolved.1 = some ⟨.of 240 0 0 1, 0⟩ ∧ resolved.2.world.network.isStream 1000 = true ∧
      (resolved.2.connect 1000 (some (written ⟨.of 240 0 0 1, 0⟩)) 16).1 ≠ .passthrough := by
  intro resolved
  have hanswer : resolved.1 = some ⟨.of 240 0 0 1, 0⟩ := resolveName_rehearsed (by decide)
  have hstream : resolved.2.world.network.isStream 1000 = true := isStream_rehearsed (by decide)
  obtain ⟨-, hpassed, -⟩ := connect_of_resolved "app" (some { Config.standard with block := 240 })
    _ _ _ [] _ none 0 true resolved.2.world hanswer hstream
  exact ⟨hanswer, hstream, fun h => absurd (hpassed.1 h) (by decide)⟩

/-- In the block 10 a name gets a private address, and a stream that is connected to it right
afterwards is left to its owner. -/
theorem connect_of_resolved_passed :
    let resolved := (rehearsed 10).resolveName (some (Text.bytes "a.test")) none 0 true
    resolved.1 = some ⟨.of 10 0 0 1, 0⟩ ∧ resolved.2.world.network.isStream 1000 = true ∧
      (resolved.2.connect 1000 (some (written ⟨.of 10 0 0 1, 0⟩)) 16).1 = .passthrough := by
  intro resolved
  have hanswer : resolved.1 = some ⟨.of 10 0 0 1, 0⟩ := resolveName_rehearsed (by decide)
  have hstream : resolved.2.world.network.isStream 1000 = true := isStream_rehearsed (by decide)
  obtain ⟨-, r, -, hr, -, -, hcovers⟩ :=
    resolved_run "app" (some { Config.standard with block := 10 }) _ _ _ [] hanswer
  exact ⟨hanswer, hstream, (connect_written_iff hr hstream _).2 (hcovers.2 (by decide))⟩

end Embedding.Embedded

end Egress
