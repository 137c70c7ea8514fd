import Egress.Proofs.AddressText
import Egress.Proofs.OwnAddresses
import Egress.Proofs.StoredAddresses

/-!
Which IPv6 addresses are IPv4 addresses to the router. The mapped spellings of an IPv4 address are
that address: which of them a program connects to can be told from the text of lines only. All other
IPv6 addresses are left alone by what there is for IPv4, exempt networks and synthetic addresses,
and are asked about, connected to and told to a proxy as the IPv6 addresses they are.
-/

namespace Egress

namespace Journal

/-- The lines as far as they can be told apart without their text. -/
def textless (j : Journal) : Journal :=
  { j with lines := j.lines.map fun line => { line with message := "" } }

/-- Two messages that are delivered alike leave the same lines behind but for their text. -/
theorem textless_breadcrumb (j : Journal) (flags : Crumbs) {message other : String}
    (hempty : message.isEmpty = other.isEmpty)
    (hnul : '\x00' ∈ message.toList ↔ '\x00' ∈ other.toList) :
    (j.breadcrumb flags message).textless = (j.breadcrumb flags other).textless := by
  simp only [breadcrumb, deliver, hempty, hnul]
  split
  · rfl
  · cases j.sink with
    | none => rfl
    | some sink =>
        simp only
        split
        · simp only [textless, Array.map_push]
        · rfl

end Journal

namespace Session

variable {π ρ : Type} [PolicyEngine π] [Resolver ρ]

/-- A target counts by the endpoint it becomes. -/
theorem connect_of_normalize_eq (s : Session π ρ) {target other : SocketAddr}
    (h : Endpoint.normalize target = .normalize other) (fd : Descriptor) :
    s.connect fd target = s.connect fd other := by
  simp only [connect, dial, route, h]

end Session

namespace Embedding.Embedded

variable {κ l ν : Type}

/-- The state as far as it can be told without the text of the lines. -/
def textless (e : Embedded κ l ν) : Embedded κ l ν :=
  { e with world := { e.world with journal := e.world.journal.textless } }

variable [PolicyCallback κ] [ResolveCallback l] [NameService ν]

/-- Addresses that become the same endpoint are connected to alike. The one place where they are
not the same is the text of a line. -/
theorem connect_alike (e : Embedded κ l ν) (fd : Descriptor)
    {address other : Option SocketAddr.Storage} {length otherLength : Nat}
    {target target' : SocketAddr} (h : SocketAddr.decode? address length = .ok target)
    (h' : SocketAddr.decode? other otherLength = .ok target')
    (hsame : Endpoint.normalize target = .normalize target') :
    (e.connect fd address length).1 = (e.connect fd other otherLength).1 ∧
      (e.connect fd address length).2.textless = (e.connect fd other otherLength).2.textless := by
  cases hrouter : e.router with
  | none =>
      simp only [connect, session?_eq_none hrouter]
      exact ⟨trivial, trivial⟩
  | some r =>
      simp only [connect, session?_eq_some hrouter, h, h', Session.connect_of_normalize_eq _ hsame]
      split
      · exact ⟨rfl, rfl⟩
      · exact ⟨rfl, rfl⟩
      · exact ⟨rfl, rfl⟩
      · rename_i error s _
        refine ⟨rfl, ?_⟩
        have hempty (t : SocketAddr) :
            (s!"connect on fd {fd} to {t.text} failed: {error.message}").isEmpty = false := by
          simp [toString]
        have hnul (t : SocketAddr) :
            '\x00' ∈ (s!"connect on fd {fd} to {t.text} failed: {error.message}").toList ↔
              '\x00' ∈ (toString fd).toList ∨ '\x00' ∈ error.message.toList := by
          simp [toString, String.toList_append, t.nul_notMem_text]
        have hline := s.world.journal.textless_breadcrumb Crumbs.embedding
          ((hempty target).trans (hempty target').symm) ((hnul target).trans (hnul target').symm)
        simp only [textless, breadcrumb, World.breadcrumb, after, hline]

end Embedding.Embedded

theorem DialContext.of_v6 {e : Endpoint} {a : Ipv6} (h : e.ip = .v6 a) (table : SyntheticTable)
    (decision : Decision) : DialContext.of table e decision = .ok ⟨e, decision, none⟩ := by
  simp only [DialContext.of, h]

theorem DecisionCache.nameFor_v6 {e : Endpoint} {a : Ipv6} (h : e.ip = .v6 a)
    (table : SyntheticTable) : nameFor table e = a.text := by
  simp only [nameFor, h]

/-- Only the mapped spellings of IPv4 addresses are no IPv6 address as an endpoint. -/
theorem Endpoint.ip_normalize_v6 {b : SocketAddr6} (h : ∀ a, b.ip ≠ .ofMapped a) :
    (normalize (.v6 b)).ip = .v6 b.ip := by
  change (IpAddr.v6 b.ip).canonical = .v6 b.ip
  cases hcarried : b.ip.mapped? with
  | some a => exact absurd (Ipv6.ofMapped_of_mapped? hcarried).symm (h a)
  | none => simp only [IpAddr.canonical, hcarried]

/-- The router with another table of synthetic addresses and other exempt IPv4 networks. -/
def Router.withIpv4 (r : Router) (table : SyntheticTable) (networks : List Ipv4Exemption) :
    Router :=
  { r with table, exemptions := { r.exemptions with ipv4 := networks } }

theorem Router.coversEndpoint_withIpv4 (r : Router) {e : Endpoint} {a : Ipv6} (h : e.ip = .v6 a)
    (table : SyntheticTable) (networks : List Ipv4Exemption) :
    (r.withIpv4 table networks).exemptions.coversEndpoint e = r.exemptions.coversEndpoint e := by
  simp only [Exemptions.coversEndpoint, h, withIpv4]

theorem Dialer.establish_v6 {ρ : Type} [Resolver ρ] (d : Dialer ρ) {e : Endpoint} {a : Ipv6}
    (h : e.ip = .v6 a) (table other : SyntheticTable) (ceiling : Nat) (decision : Decision) :
    d.establish table ceiling e decision = d.establish other ceiling e decision := by
  simp only [establish, DialContext.of_v6 h, directDial, candidates]

/-- The socket was opened for an IPv6 address as decided: it is aimed at the address itself, or at the
proxy, which is told the address. -/
def Socket.IsFor (s : Socket) (a : Ipv6) (port : UInt16) : Decision → Prop
  | .direct => s.targets ⊆ [.v6 { ip := a, port }]
  | .socks5 proxy => s.targets ⊆ [.v4 proxy] ∧ ∃ request,
      Socks.connectRequest (.ipv6 a) port = .ok request ∧ s.sent <+: Socks.greeting ++ request

theorem Socket.IsFor.of_same {s t : Socket} {a : Ipv6} {port : UInt16} {decision : Decision}
    (h : s.IsFor a port decision) (htargets : s.targets = t.targets) (hsent : s.sent = t.sent) :
    t.IsFor a port decision := by
  cases decision with
  | direct =>
      change t.targets ⊆ _
      rw [← htargets]
      exact h
  | socks5 proxy =>
      obtain ⟨hproxy, request, hrequest, htold⟩ := h
      exact ⟨htargets ▸ hproxy, request, hrequest, hsent ▸ htold⟩

/-- An IPv6 address is established without a lookup, by sockets for it alone. -/
theorem Dialer.establish_opens_v6 {ρ : Type} [Resolver ρ] (d : Dialer ρ) {e : Endpoint} {a : Ipv6}
    (h : e.ip = .v6 a) (table : SyntheticTable) (ceiling : Nat) (decision : Decision) :
    (d.establish table ceiling e decision).2.resolver = d.resolver ∧
    ∃ opened,
      (d.establish table ceiling e decision).2.network.sockets = d.network.sockets ++ opened ∧
      ∀ socket ∈ opened, socket.IsFor a e.port decision := by
  simp only [establish, DialContext.of_v6 h]
  cases decision with
  | direct =>
      have haddress : e.socketAddr = .v6 { ip := a, port := e.port } := by
        simp only [Endpoint.socketAddr, h, SocketAddr.of]
      have hcandidates : d.candidates table ⟨e, .direct, none⟩ =
          (.ok [.v6 { ip := a, port := e.port }], d) := by
        simp only [candidates, haddress]
      obtain ⟨hresolver, opened, hdialed, htargets⟩ := directDial_of_candidates hcandidates ceiling
      exact ⟨hresolver, opened, hdialed.sockets, htargets⟩
  | socks5 proxy =>
      have htarget : DialContext.target ⟨e, .socks5 proxy, none⟩ = .ipv6 a := by
        simp only [DialContext.target, h]
      obtain ⟨request, hrequest⟩ : ∃ request,
        Socks.connectRequest (.ipv6 a) e.port = .ok request := ⟨_, rfl⟩
      obtain ⟨opened, hopened, -, htold⟩ := d.proxiedDial_opens ceiling ⟨e, .socks5 proxy, none⟩
        proxy (by rw [htarget, hrequest])
      refine ⟨d.resolver_proxiedDial ceiling _ proxy, opened, hopened, fun socket hsocket => ?_⟩
      obtain ⟨hproxy, hsent⟩ := htold socket hsocket
      exact ⟨hproxy, request, hrequest, hsent⟩

namespace Session

variable {π ρ : Type}

def withIpv4 (s : Session π ρ) (table : SyntheticTable) (networks : List Ipv4Exemption) :
    Session π ρ :=
  { s with router := s.router.withIpv4 table networks }

section Blind

variable [PolicyEngine π] [Resolver ρ] (s : Session π ρ) (table : SyntheticTable)
  (networks : List Ipv4Exemption)

omit [PolicyEngine π] [Resolver ρ] in
theorem swap_withIpv4 (fd replacement : Descriptor) :
    (s.withIpv4 table networks).swap fd replacement =
      ((s.swap fd replacement).1, (s.swap fd replacement).2.withIpv4 table networks) := by
  have hworld : (s.withIpv4 table networks).world = s.world := rfl
  simp only [swap, hworld]
  split <;> rfl

omit [Resolver ρ] in
theorem askEndpoint_withIpv4 {e : Endpoint} {a : Ipv6} (h : e.ip = .v6 a) :
    (s.withIpv4 table networks).askEndpoint e =
      ((s.askEndpoint e).1, (s.askEndpoint e).2.withIpv4 table networks) := by
  simp only [askEndpoint, DecisionCache.nameFor_v6 h]
  rfl

omit [PolicyEngine π] in
theorem dialAs_withIpv4 {e : Endpoint} {a : Ipv6} (h : e.ip = .v6 a) (decision : Decision) :
    (s.withIpv4 table networks).dialAs e decision =
      ((s.dialAs e decision).1, (s.dialAs e decision).2.withIpv4 table networks) := by
  cases hrun : s.world.toDialer.establish s.router.table s.router.ceiling e decision with
  | mk outcome d =>
      have hblind : (s.withIpv4 table networks).world.toDialer.establish
          (s.withIpv4 table networks).router.table (s.withIpv4 table networks).router.ceiling e
          decision = (outcome, d) :=
        (s.world.toDialer.establish_v6 h table s.router.table s.router.ceiling decision).trans hrun
      simp only [dialAs, hrun, hblind]
      cases outcome with
      | ok fd => cases decision <;> rfl
      | error e => rfl

/-- What there is for IPv4 has no part in the dial of an IPv6 address. -/
theorem dial_withIpv4 {target : SocketAddr} {a : Ipv6}
    (h : (Endpoint.normalize target).ip = .v6 a) :
    (s.withIpv4 table networks).dial target =
      ((s.dial target).1, (s.dial target).2.withIpv4 table networks) := by
  have hcovers := s.router.coversEndpoint_withIpv4 h table networks
  cases hexempt : s.router.exemptions.coversEndpoint (.normalize target) with
  | true =>
      rw [s.dial_of_exempt hexempt, dial_of_exempt _ (hcovers.trans hexempt)]
      rfl
  | false =>
      rw [s.dial_eq_dialAs hexempt, dial_eq_dialAs _ (hcovers.trans hexempt)]
      simp only [s.askEndpoint_withIpv4 table networks h, dialAs_withIpv4 _ table networks h]

theorem connect_withIpv4 {target : SocketAddr} {a : Ipv6}
    (h : (Endpoint.normalize target).ip = .v6 a) (fd : Descriptor) :
    (s.withIpv4 table networks).connect fd target =
      ((s.connect fd target).1, (s.connect fd target).2.withIpv4 table networks) := by
  have hsame : (s.withIpv4 table networks).world.network = s.world.network := rfl
  cases hstream : s.world.network.isStream fd with
  | false => simp only [connect, hsame, hstream, Bool.false_eq_true, if_false]
  | true =>
      simp only [connect, hsame, hstream, if_true, s.dial_withIpv4 table networks h]
      cases s.dial target with
      | mk outcome s =>
          cases outcome with
          | error e => rfl
          | ok opened =>
              cases opened with
              | none => rfl
              | some replacement => simp only [swap_withIpv4]

end Blind

variable [PolicyEngine π]

/-- A decision is made without the engine, or with what it says. -/
theorem askName_policy (s : Session π ρ) (name : String) (port : UInt16) :
    (s.askName name port).2.world.policy = s.world.policy ∨
      (s.askName name port).2.world.policy =
        (PolicyEngine.evaluate s.world.policy s.router.cache.application name port).2 := by
  simp only [askName, DecisionCache.query]
  split
  · exact .inl rfl
  · split
    · exact .inl rfl
    · exact .inr rfl

/-- `t` is `s` after an IPv6 address was dialed, or left alone, as nothing but itself. The engine was
asked about its text at most, nothing was looked up, and sockets were opened for it alone. -/
structure DialedAs (s t : Session π ρ) (a : Ipv6) (port : UInt16) : Prop where
  policy : t.world.policy = s.world.policy ∨ t.world.policy =
    (PolicyEngine.evaluate s.world.policy s.router.cache.application a.text port).2
  resolver : t.world.resolver = s.world.resolver
  sockets : ∃ opened, t.world.network.sockets = s.world.network.sockets ++ opened ∧
    ∀ socket ∈ opened, socket.IsFor a port (s.askName a.text port).1

/-- A session in which nothing was dialed. -/
theorem dialedAs_of_world {s t : Session π ρ} (h : t.world = s.world) (a : Ipv6) (port : UInt16) :
    s.DialedAs t a port := by
  refine ⟨.inl (by rw [h]), by rw [h], [], ?_, nofun⟩
  rw [h, List.append_nil]

variable [Resolver ρ]

theorem dialedAs_dial (s : Session π ρ) {target : SocketAddr} {a : Ipv6}
    (h : (Endpoint.normalize target).ip = .v6 a) :
    s.DialedAs (s.dial target).2 a (Endpoint.normalize target).port := by
  cases hexempt : s.router.exemptions.coversEndpoint (.normalize target) with
  | true =>
      have hworld : s.countBypass.world = s.world := rfl
      rw [s.dial_of_exempt hexempt]
      exact dialedAs_of_world hworld a _
  | false =>
      have hask : s.askEndpoint (.normalize target) =
          s.askName a.text (Endpoint.normalize target).port := by
        rw [askEndpoint, DecisionCache.nameFor_v6 h]
      obtain ⟨decision, t, hasked⟩ : ∃ decision t,
        s.askName a.text (Endpoint.normalize target).port = (decision, t) := ⟨_, _, rfl⟩
      obtain ⟨-, -, -, hnetwork, hresolver⟩ :=
        s.askName_frame a.text (Endpoint.normalize target).port
      have hpolicy := s.askName_policy a.text (Endpoint.normalize target).port
      rw [hasked] at hnetwork hresolver hpolicy
      obtain ⟨-, hworld⟩ := t.dialAs_establishes (.normalize target) decision
      obtain ⟨hunasked, opened, hopened, hfor⟩ :=
        t.world.toDialer.establish_opens_v6 h t.router.table t.router.ceiling decision
      simp only [s.dial_eq_dialAs hexempt, hask, hasked]
      refine ⟨?_, ?_, opened, ?_, ?_⟩
      · rw [hworld]
        exact hpolicy
      · rw [hworld]
        exact hunasked.trans hresolver
      · rw [hworld]
        exact hopened.trans (by rw [hnetwork])
      · rw [hasked]
        exact hfor

theorem DialedAs.connect {s : Session π ρ} {target : SocketAddr} {a : Ipv6} {port : UInt16}
    (h : s.DialedAs (s.dial target).2 a port) (fd : Descriptor) :
    s.DialedAs (s.connect fd target).2 a port := by
  cases hstream : s.world.network.isStream fd with
  | false =>
      simp only [Session.connect, hstream, Bool.false_eq_true, if_false]
      exact dialedAs_of_world rfl a port
  | true =>
      obtain ⟨opened, hopened, hfor⟩ := h.sockets
      obtain ⟨kept, hkept, hmap⟩ := s.connect_sockets hstream hopened
      refine ⟨?_, ?_, kept, hkept, fun socket hsocket => ?_⟩
      · rw [(s.connect_frame hstream target).2]
        exact h.policy
      · rw [s.resolver_connect hstream target]
        exact h.resolver
      · obtain ⟨same, hsame, htargets, hsent⟩ := Socket.exists_of_map_traffic hmap hsocket
        exact (hfor same hsame).of_same htargets hsent

end Session

namespace Embedding.Embedded

variable {κ l ν : Type}

def withIpv4 (e : Embedded κ l ν) (table : SyntheticTable) (networks : List Ipv4Exemption) :
    Embedded κ l ν :=
  { e with router := e.router.map (·.withIpv4 table networks) }

variable [PolicyCallback κ] [ResolveCallback l] [NameService ν]

theorem connect_withIpv4 (e : Embedded κ l ν) (table : SyntheticTable)
    (networks : List Ipv4Exemption) (fd : Descriptor) {address : Option SocketAddr.Storage}
    {length : Nat} {target : SocketAddr} {a : Ipv6}
    (hdecoded : SocketAddr.decode? address length = .ok target)
    (h : (Endpoint.normalize target).ip = .v6 a) :
    (e.withIpv4 table networks).connect fd address length =
      ((e.connect fd address length).1,
        (e.connect fd address length).2.withIpv4 table networks) := by
  cases hrouter : e.router with
  | none =>
      have hblind : (e.withIpv4 table networks).session? = none := by
        rw [session?, withIpv4, hrouter]
        rfl
      simp only [connect, session?_eq_none hrouter, hblind]
  | some r =>
      have hblind : (e.withIpv4 table networks).session? =
          some ((⟨r, e.world⟩ : Session (Policy κ) (Names l ν)).withIpv4 table networks) := by
        rw [session?, withIpv4, hrouter]
        rfl
      simp only [connect, session?_eq_some hrouter, hblind, hdecoded,
        Session.connect_withIpv4 _ table networks h]
      cases (⟨r, e.world⟩ : Session (Policy κ) (Names l ν)).connect fd target with
      | mk verdict t => cases verdict <;> rfl

/-- A connect to an IPv6 address is one of the router's, but for a line. -/
theorem connect_dialedAs {e : Embedded κ l ν} {s : Session (Policy κ) (Names l ν)}
    (hs : e.session? = some s) (fd : Descriptor) {address : Option SocketAddr.Storage}
    {length : Nat} {target : SocketAddr} {a : Ipv6}
    (hdecoded : SocketAddr.decode? address length = .ok target)
    (h : (Endpoint.normalize target).ip = .v6 a) :
    ∃ t, (e.connect fd address length).2.session? = some t ∧
      s.DialedAs t a (Endpoint.normalize target).port := by
  have hconnect := (s.dialedAs_dial h).connect fd
  simp only [connect, hs, hdecoded]
  cases hrun : s.connect fd target with
  | mk verdict t =>
      rw [hrun] at hconnect
      cases verdict <;>
        exact ⟨_, rfl, hconnect.policy, hconnect.resolver, hconnect.sockets⟩

/-- An IPv4 address and its mapped spelling, with any flow information and scope, are connected to
with the same result and the same effects: what the engine and the resolver were asked, sockets and
descriptors, table, decisions and counters are all the same, and the lines but for their text. No
other IPv6 address counts as an IPv4 one. What there is for IPv4, exempt networks and synthetic
addresses, has no part in a connect to it; and it is asked about, connected to and told to a proxy
as the IPv6 address it is. -/
theorem connect_mapped_alike (e : Embedded κ l ν) (fd : Descriptor) :
    (∀ (a : Ipv4) (port : UInt16) (flow scope : UInt32) (plain mapped : SocketAddr.Storage)
      (m n : Nat), plain.Holds (.v4 ⟨a, port⟩) → 16 ≤ m →
      mapped.Holds (.v6 { ip := .ofMapped a, port, flow, scope }) → 28 ≤ n →
      (e.connect fd (some plain) m).1 = (e.connect fd (some mapped) n).1 ∧
        (e.connect fd (some plain) m).2.textless = (e.connect fd (some mapped) n).2.textless) ∧
    ∀ (b : SocketAddr6) (storage : SocketAddr.Storage) (n : Nat), (∀ a, b.ip ≠ .ofMapped a) →
      storage.Holds (.v6 b) → 28 ≤ n →
      let connected := e.connect fd (some storage) n
      (∀ table networks, (e.withIpv4 table networks).connect fd (some storage) n =
        (connected.1, connected.2.withIpv4 table networks)) ∧
      ∀ s, e.session? = some s →
        ∃ t, connected.2.session? = some t ∧ s.DialedAs t b.ip b.port := by
  refine ⟨?_, ?_⟩
  · intro a port flow scope plain mapped m n hplain hm hmapped hn
    refine e.connect_alike fd (SocketAddr.decode?_of_holds hplain ?_)
      (SocketAddr.decode?_of_holds hmapped ?_) (Endpoint.normalize_mapped a port flow scope).symm
    · rwa [SocketAddr.length_encode]
    · rwa [SocketAddr.length_encode]
  · intro b storage n hother hstorage hn connected
    have hdecoded : SocketAddr.decode? (some storage) n = .ok (.v6 b) := by
      apply SocketAddr.decode?_of_holds hstorage
      rwa [SocketAddr.length_encode]
    have hip := Endpoint.ip_normalize_v6 hother
    exact ⟨fun table networks => e.connect_withIpv4 table networks fd hdecoded hip,
      fun s hs => connect_dialedAs hs fd hdecoded hip⟩

open Rehearsal in
/-- A rehearsed router that exempts IPv6 addresses by rules and not altogether. -/
def selective : Embedded (Prompter PolicyReply) (Directory (UInt16 → ResolveReply))
    (Directory (Except LookupFailure (List IpAddr))) :=
  { rehearsed 240 with
    router := some (.new { RouterConfig.standard "app" with
      exemptions := { Exemptions.standard with allIpv6 := false } }) }

/-- The mapped spelling of a loopback address is left to the caller as the address itself is. The
IPv6 address that ends in the same bits is not, whichever IPv4 networks are exempt. -/
theorem connect_mapped_alike_loopback :
    let mapped : SocketAddr6 :=
      { ip := .ofMapped (.of 127 0 0 1), port := 80, flow := 7, scope := 3 }
    let compatible : SocketAddr6 := { ip := .ofGroups [0, 0, 0, 0, 0, 0, 0x7f00, 1], port := 80 }
    let storage (a : SocketAddr6) := some (SocketAddr.Storage.ofBytes (SocketAddr.encode (.v6 a)))
    (selective.connect 1000 (storage mapped) 28).1 = .passthrough ∧
      ∀ networks, ((selective.withIpv4 (.new 240 1) networks).connect 1000
        (storage compatible) 28).1 ≠ .passthrough := by
  intro mapped compatible storage
  have hholds (a : SocketAddr) : (SocketAddr.Storage.ofBytes (SocketAddr.encode a)).Holds a :=
    (SocketAddr.startsWith_encode List.prefix_rfl).holds
  have hother (a : Ipv4) : compatible.ip ≠ .ofMapped a := by
    intro h
    have hcarried : compatible.ip.mapped? = none := by decide +kernel
    rw [h, Ipv6.mapped?_ofMapped] at hcarried
    cases hcarried
  obtain ⟨r, hrouter, hexemptions⟩ : ∃ r, selective.router = some r ∧
    r.exemptions = { Exemptions.standard with allIpv6 := false } := ⟨_, rfl, rfl⟩
  have hstream : selective.world.network.isStream 1000 = true := rfl
  obtain ⟨halike, halone⟩ := selective.connect_mapped_alike 1000
  refine ⟨?_, ?_⟩
  · have hplain : (selective.connect 1000 (some (written ⟨.of 127 0 0 1, 80⟩)) 16).1 =
        .passthrough := by
      rw [connect_written_iff hrouter hstream, hexemptions]
      decide
    have hsame := (halike (.of 127 0 0 1) 80 7 3 _ _ 16 28 (hholds _) (Nat.le_refl 16) (hholds _)
      (Nat.le_refl 28)).1
    exact hsame.symm.trans hplain
  · intro networks
    have hdecoded : SocketAddr.decode? (storage compatible) 28 = .ok (.v6 compatible) := by
      have hroom : (SocketAddr.encode (.v6 compatible)).length ≤ 28 :=
        Nat.le_of_eq (SocketAddr.length_encode (.v6 compatible))
      exact SocketAddr.decode?_of_holds (hholds (.v6 compatible)) hroom
    have hstatus := (connect_of_decoded hrouter 1000 hdecoded).1
    have hblind := (halone compatible _ 28 hother (hholds (.v6 compatible)) (Nat.le_refl 28)).1
      (.new 240 1) networks
    have hnot : r.exemptions.coversEndpoint (.normalize (.v6 compatible)) = false := by
      rw [hexemptions]
      decide +kernel
    rw [hblind, hstatus, ne_eq, ConnectStatus.ofVerdict_eq_passthrough,
      Session.connect_passthrough_iff ⟨r, selective.world⟩ hstream, hnot]
    exact Bool.false_ne_true

end Embedding.Embedded

end Egress
