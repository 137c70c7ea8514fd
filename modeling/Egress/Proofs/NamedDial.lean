import Egress.Proofs.Bare
import Egress.Proofs.DecisionMemo
import Egress.Proofs.Dialing
import Egress.Proofs.Reachable
import Egress.Rehearsal

/-!
Dialing a synthetic address that stands for a name. From the policy to the last byte on the wire
only the name is used: it is the name that is decided about, looked up, or told to the proxy.
-/

namespace Egress

theorem DialContext.of_named {table : SyntheticTable} {e : Endpoint} {a : Ipv4} {name : String}
    (hip : e.ip = .v4 a) (hname : table.nameOf? a = some name) (decision : Decision) :
    DialContext.of table e decision = .ok ⟨e, decision, some name⟩ := by
  simp only [DialContext.of, hip, SyntheticTable.isSynthetic_of_nameOf? hname, hname, if_true]

theorem DialContext.of_unbound {table : SyntheticTable} {e : Endpoint} {a : Ipv4}
    (hip : e.ip = .v4 a) (hblock : table.isSynthetic a = true) (hfree : table.nameOf? a = none)
    (decision : Decision) :
    DialContext.of table e decision = .error (.staleSyntheticAddress a) := by
  simp only [DialContext.of, hip, hblock, hfree, if_true]

theorem DecisionCache.nameFor_named {table : SyntheticTable} {e : Endpoint} {a : Ipv4}
    {name : String} (hip : e.ip = .v4 a) (hname : table.nameOf? a = some name) :
    DecisionCache.nameFor table e = name := by
  simp only [DecisionCache.nameFor, hip, SyntheticTable.isSynthetic_of_nameOf? hname, hname,
    if_true, Option.getD_some]

theorem DecisionCache.nameFor_unbound {table : SyntheticTable} {e : Endpoint} {a : Ipv4}
    (hip : e.ip = .v4 a) (hblock : table.isSynthetic a = true) (hfree : table.nameOf? a = none) :
    DecisionCache.nameFor table e = "" := by
  simp only [DecisionCache.nameFor, hip, hblock, hfree, if_true, Option.getD_none]

/-- A cached decision is used without a question. Without one the engine is asked once, and its
answer is what is decided. -/
theorem DecisionCache.query_cases {π : Type} [PolicyEngine π] (c : DecisionCache) (policy : π)
    (journal : Journal) (now : Nat) {name : String} {port : UInt16} (hname : name ≠ "")
    (hport : port ≠ 0) :
    (c.entries[key name port]? = some (c.query policy journal now name port).decision ∧
      (c.query policy journal now name port).policy = policy) ∨
    (c.entries[key name port]? = none ∧
      (c.query policy journal now name port).decision =
        PolicyAnswer.meaning (PolicyEngine.evaluate policy c.application name port).1 ∧
      (c.query policy journal now name port).policy =
        (PolicyEngine.evaluate policy c.application name port).2) := by
  cases hentry : c.entries[key name port]? with
  | some decision =>
      rw [query_of_hit c policy journal now hname hport hentry]
      exact .inl ⟨rfl, rfl⟩
  | none =>
      rw [query_of_miss c policy journal now hname hport hentry]
      exact .inr ⟨rfl, (settle_read ..).1, rfl⟩

namespace Session

variable {π ρ : Type} [PolicyEngine π] [Resolver ρ] (s : Session π ρ)

theorem dial_eq_dialAs {target : SocketAddr}
    (h : s.router.exemptions.coversEndpoint (.normalize target) = false) :
    s.dial target =
      let e := Endpoint.normalize target
      let asked := s.askEndpoint e
      let dialed := asked.2.dialAs e asked.1
      (dialed.1.map some, dialed.2) := by
  have hroute : s.route target = (Route.ofDecision (.normalize target)
      (s.askEndpoint (.normalize target)).1, (s.askEndpoint (.normalize target)).2) := by
    simp only [route, h, Bool.false_eq_true, if_false]
  cases hdecision : (s.askEndpoint (.normalize target)).1 <;>
    simp only [dial, hroute, hdecision, Route.ofDecision]

omit [PolicyEngine π] in
theorem dialAs_establishes (e : Endpoint) (decision : Decision) :
    (s.dialAs e decision).1 =
      (s.world.toDialer.establish s.router.table s.router.ceiling e decision).1 ∧
    (s.dialAs e decision).2.world = { s.world with
      toDialer := (s.world.toDialer.establish s.router.table s.router.ceiling e decision).2 } := by
  simp only [dialAs]
  split
  · rename_i hok
    rw [hok]
    cases decision <;> exact ⟨rfl, rfl⟩
  · rename_i herror
    rw [herror]
    exact ⟨rfl, rfl⟩

omit [Resolver ρ] in
/-- Asking for a decision is not noticed by what dials. -/
theorem askName_frame (name : String) (port : UInt16) :
    (s.askName name port).2.router.table = s.router.table ∧
      (s.askName name port).2.router.ceiling = s.router.ceiling ∧
      (s.askName name port).2.world.now = s.world.now ∧
      (s.askName name port).2.world.network = s.world.network ∧
      (s.askName name port).2.world.resolver = s.world.resolver :=
  ⟨rfl, rfl, rfl, rfl, rfl⟩

omit [Resolver ρ] in
theorem askName_cases {name : String} {port : UInt16} (hname : name ≠ "") (hport : port ≠ 0) :
    (s.router.cache.entries[DecisionCache.key name port]? = some (s.askName name port).1 ∧
      (s.askName name port).2.world.policy = s.world.policy) ∨
    (s.router.cache.entries[DecisionCache.key name port]? = none ∧
      (s.askName name port).1 = PolicyAnswer.meaning
        (PolicyEngine.evaluate s.world.policy s.router.cache.application name port).1 ∧
      (s.askName name port).2.world.policy =
        (PolicyEngine.evaluate s.world.policy s.router.cache.application name port).2) :=
  DecisionCache.query_cases s.router.cache s.world.policy s.world.journal s.world.now hname hport

/-- A dial of an address that stands for a name asks for the decision about the name, and then
dials the name as decided. -/
theorem dial_of_bound {target : SocketAddr} {a : Ipv4} {port : UInt16} {name : String}
    (htarget : Endpoint.normalize target = .new (.v4 a) port)
    (hexempt : s.router.exemptions.coversEndpoint (.normalize target) = false)
    (hbound : s.reverseName a = some name) :
    ∃ (decision : Decision) (c : DialContext) (d : Dialer ρ),
      decision = (s.askName name port).1 ∧ c.name = some name ∧ c.endpoint.port = port ∧
      d.now = s.world.now ∧ d.network = s.world.network ∧ d.resolver = s.world.resolver ∧
      (s.dial target).2.world.policy = (s.askName name port).2.world.policy ∧
      (decision = .direct →
        (s.dial target).1 = (d.directDial s.router.table s.router.ceiling c).1.map some ∧
        (s.dial target).2.world.toDialer = (d.directDial s.router.table s.router.ceiling c).2) ∧
      ∀ proxy, decision = .socks5 proxy →
        (s.dial target).1 = (d.proxiedDial s.router.ceiling c proxy).1.map some ∧
        (s.dial target).2.world.toDialer = (d.proxiedDial s.router.ceiling c proxy).2 := by
  have hasks : s.askEndpoint (.new (.v4 a) port) = s.askName name port := by
    have hfor : DecisionCache.nameFor s.router.table (.new (.v4 a) port) = name :=
      DecisionCache.nameFor_named rfl hbound
    simp only [askEndpoint, hfor]
    rfl
  obtain ⟨htable, hceiling, hnow, hnetwork, hresolver⟩ := s.askName_frame name port
  obtain ⟨decision, t, hask⟩ : ∃ decision t, s.askName name port = (decision, t) := ⟨_, _, rfl⟩
  simp only [hask] at htable hceiling hnow hnetwork hresolver
  obtain ⟨houtcome, hworld⟩ := t.dialAs_establishes (.new (.v4 a) port) decision
  have hcontext := DialContext.of_named (e := .new (.v4 a) port) rfl hbound decision
  simp only [dial_eq_dialAs s hexempt, htarget, hasks, hask, hworld, houtcome, htable, hceiling,
    Dialer.establish, hcontext]
  refine ⟨decision, ⟨.new (.v4 a) port, decision, some name⟩, t.world.toDialer, rfl, rfl, rfl, hnow,
    hnetwork, hresolver, trivial, fun hdirect => ?_, fun proxy hproxy => ?_⟩
  · subst hdirect
    exact ⟨rfl, rfl⟩
  · subst hproxy
    exact ⟨rfl, rfl⟩

theorem dial_of_name {target : SocketAddr} {a : Ipv4} {port : UInt16} {name : String}
    (htarget : Endpoint.normalize target = .new (.v4 a) port) (hport : port ≠ 0)
    (hexempt : s.router.exemptions.coversEndpoint (.normalize target) = false)
    (hbound : s.reverseName a = some name) (hname : name ≠ "") :
    ∃ (decision : Decision) (c : DialContext) (d : Dialer ρ),
      c.name = some name ∧ c.endpoint.port = port ∧
      d.now = s.world.now ∧ d.network = s.world.network ∧ d.resolver = s.world.resolver ∧
      ((s.router.cache.entries[DecisionCache.key name port]? = some decision ∧
        (s.dial target).2.world.policy = s.world.policy) ∨
      (s.router.cache.entries[DecisionCache.key name port]? = none ∧
        decision = PolicyAnswer.meaning
          (PolicyEngine.evaluate s.world.policy s.router.cache.application name port).1 ∧
        (s.dial target).2.world.policy =
          (PolicyEngine.evaluate s.world.policy s.router.cache.application name port).2)) ∧
      (decision = .direct →
        (s.dial target).1 = (d.directDial s.router.table s.router.ceiling c).1.map some ∧
        (s.dial target).2.world.toDialer = (d.directDial s.router.table s.router.ceiling c).2) ∧
      ∀ proxy, decision = .socks5 proxy →
        (s.dial target).1 = (d.proxiedDial s.router.ceiling c proxy).1.map some ∧
        (s.dial target).2.world.toDialer = (d.proxiedDial s.router.ceiling c proxy).2 := by
  obtain ⟨decision, c, d, hasked, hcalled, hendpoint, hnow, hnetwork, hresolver, hpolicy, hdials⟩ :=
    s.dial_of_bound htarget hexempt hbound
  refine ⟨decision, c, d, hcalled, hendpoint, hnow, hnetwork, hresolver, ?_, hdials⟩
  rw [hasked, hpolicy]
  exact s.askName_cases hname hport

end Session

theorem Socks.connectRequest_of_long {name : String} (h : 255 < (Text.bytes name).length)
    (port : UInt16) : Socks.connectRequest (.domain name) port =
      .error (.nameLength (Text.bytes name).length) := by
  simp only [connectRequest, Target.payload, if_pos (Or.inr h)]

/-- The forms in which a target carries an IPv4 address and a port. -/
inductive SocketAddr.Carries (a : Ipv4) (port : UInt16) : SocketAddr → Prop
  | plain : Carries a port (.v4 ⟨a, port⟩)
  | mapped (flow scope : UInt32) :
      Carries a port (.v6 { ip := Ipv6.ofMapped a, port, flow, scope })

theorem SocketAddr.Carries.normalize_eq {a : Ipv4} {port : UInt16} {target : SocketAddr}
    (h : target.Carries a port) : Endpoint.normalize target = .new (.v4 a) port := by
  cases h with
  | plain => rfl
  | mapped flow scope => exact Endpoint.normalize_mapped a port flow scope

namespace Session

variable {π ρ : Type} [PolicyEngine π] [Resolver ρ]

/-- From the policy to the last byte on the wire a bound address is dialed by its name. The decision
is the cached one or the answer to a single question about the name. A direct dial looks the name up
once and connects to nothing but the answer; a dial through a proxy looks up nothing, connects to
the proxy at most, and sends it nothing but the greeting and the request for the name. -/
theorem dial_uses_name (s : Session (RecordedPolicy π) (RecordedResolver ρ))
    (hreachable : s.router.Reachable) {a : Ipv4} {port : UInt16} {target : SocketAddr}
    {name : String} (htarget : target.Carries a port) (hport : port ≠ 0)
    (hexempt : s.router.exemptions.coversEndpoint (.normalize target) = false)
    (hbound : s.reverseName a = some name) :
    s.bare.dial target = ((s.dial target).1, (s.dial target).2.bare) ∧
    name ≠ "" ∧ name ≠ a.text ∧
    ∃ decision,
      ((s.router.cache.entries[DecisionCache.key name port]? = some decision ∧
        (s.dial target).2.world.policy.notes = s.world.policy.notes) ∨
      (s.router.cache.entries[DecisionCache.key name port]? = none ∧ ∃ answer,
        decision = PolicyAnswer.meaning answer ∧
        (s.dial target).2.world.policy.notes =
          s.world.policy.notes ++ [⟨s.router.cache.application, name, port, answer⟩])) ∧
      (decision = .direct → ∃ answer opened,
        (s.dial target).2.world.resolver.notes = s.world.resolver.notes ++ [⟨name, port, answer⟩] ∧
        (s.dial target).2.world.network.sockets = s.world.network.sockets ++ opened ∧
        ∀ socket ∈ opened, ∀ candidate ∈ socket.targets, ∃ found,
          answer = .ok found ∧ candidate ∈ found) ∧
      ∀ proxy, decision = .socks5 proxy → ∃ opened,
        (s.dial target).2.world.resolver.notes = s.world.resolver.notes ∧
        (s.dial target).2.world.network.sockets = s.world.network.sockets ++ opened ∧
        opened.length ≤ 1 ∧
        (∀ socket ∈ opened, socket.targets ⊆ [.v4 proxy] ∧ ∃ request,
          Socks.connectRequest (.domain name) port = .ok request ∧
          socket.sent <+: Socks.greeting ++ request) ∧
        (255 < (Text.bytes name).length → opened = [] ∧
          (s.dial target).1 = .error (.proxyProtocol (.nameLength (Text.bytes name).length))) := by
  have hroutable := hreachable.routable name (SyntheticTable.mem_slots_of_nameOf? hbound)
  -- Text that is a numeral is never bound, which keeps the address's own text out.
  have hnumeric : name ≠ a.text := by
    rintro rfl
    have hsome := NumericHost.isSome_read?_text a
    rw [hroutable.not_numeric] at hsome
    cases hsome
  obtain ⟨decision, c, d, hname, hendpoint, hnow, hnetwork, hresolver, hasked, hdirect, hproxied⟩ :=
    s.dial_of_name htarget.normalize_eq hport hexempt hbound hroutable.ne_empty
  refine ⟨s.dial_bare target, hroutable.ne_empty, hnumeric, decision, ?_, fun hd => ?_,
    fun proxy hd => ?_⟩
  · rcases hasked with ⟨hentry, hpolicy⟩ | ⟨hentry, hanswer, hpolicy⟩
    · exact .inl ⟨hentry, congrArg _ hpolicy⟩
    · exact .inr ⟨hentry, _, hanswer, congrArg _ hpolicy⟩
  · obtain ⟨-, hworld⟩ := hdirect hd
    obtain ⟨hlookup, opened, hopened, htargets⟩ :=
      d.directDial_opens s.router.table s.router.ceiling hname
    rw [hendpoint, hresolver] at hlookup htargets
    rw [hnetwork] at hopened
    refine ⟨_, opened, ?_, ?_, htargets⟩
    · rw [hworld, hlookup]
      rfl
    · rw [hworld, hopened]
  · obtain ⟨houtcome, hworld⟩ := hproxied proxy hd
    have htold : c.target = .domain name := by simp only [DialContext.target, hname]
    have hsame := (d.resolver_proxiedDial s.router.ceiling c proxy).trans hresolver
    rw [hworld, houtcome, hsame, ← hnetwork]
    cases hrequest : Socks.connectRequest (.domain name) port with
    | error fault =>
        rw [← htold, ← hendpoint] at hrequest
        obtain ⟨hrefused, hnothing⟩ :=
          Dialer.proxiedDial_of_refused hrequest s.router.ceiling proxy
        rw [hrefused, hnothing]
        refine ⟨[], rfl, (List.append_nil _).symm, Nat.zero_le 1, by simp, fun hlong => ⟨rfl, ?_⟩⟩
        rw [htold, Socks.connectRequest_of_long hlong] at hrequest
        rw [Except.error.inj hrequest]
        rfl
    | ok request =>
        obtain ⟨opened, hopened, hone, hsent⟩ :=
          d.proxiedDial_opens s.router.ceiling c proxy (by rw [htold, hendpoint, hrequest])
        refine ⟨opened, rfl, hopened, hone, fun socket hs => ?_, fun hlong => ?_⟩
        · exact ⟨(hsent socket hs).1, request, rfl, (hsent socket hs).2⟩
        · rw [Socks.connectRequest_of_long hlong] at hrequest
          cases hrequest

open Rehearsal in
def proxiedSession : Session (RecordedPolicy (Prompter (Except PolicyError PolicyAnswer)))
    (RecordedResolver (Directory (UInt16 → Except ResolveError (List SocketAddr)))) where
  router := .new (.standard "app")
  world := {
    now := 0
    journal := { processId := 1 }
    network := {}
    resolver := ⟨⟨[], fun _ => .ok [], []⟩, []⟩
    hostAnswer := none
    policy := ⟨⟨[], .ok { host := some "10.0.0.1", port := 1080 }, []⟩, []⟩ }

theorem router_after_resolveName :
    (proxiedSession.after (.resolveName "b.test" none .application)).router =
      (proxiedSession.bindName "b.test").2.router := by
  have hcovers : Exemptions.coversName proxiedSession.world.localName "b.test" = false := by
    decide +kernel
  simp [after, resolveName, hcovers]

theorem table_after_resolveName :
    (proxiedSession.after (.resolveName "b.test" none .application)).router.table =
      (proxiedSession.router.table.allocate "b.test").table := by
  have hfree : proxiedSession.router.table.names["b.test"]? = none :=
    Std.HashMap.getElem?_empty
  rw [router_after_resolveName]
  simp only [bindName, SyntheticTable.bind, hfree]

theorem reverseName_after_resolveName :
    (proxiedSession.after (.resolveName "b.test" none .application)).reverseName (.of 240 0 0 1) =
      some "b.test" := by
  rw [reverseName, table_after_resolveName]
  rfl

theorem notes_after_resolveName :
    (proxiedSession.after (.resolveName "b.test" none .application)).world.policy.notes = [] := by
  simp only [after, resolveName]
  split
  · rfl
  · simp only [World.breadcrumb, bindName]
    split <;> rfl

theorem dial_uses_name_once :
    ∃ answer, ((proxiedSession.after (.resolveName "b.test" none .application)).dial
      (.v4 ⟨.of 240 0 0 1, 443⟩)).2.world.policy.notes = [⟨"app", "b.test", 443, answer⟩] := by
  have hreachable : Router.Reachable
      (proxiedSession.after (.resolveName "b.test" none .application)).router :=
    .call (.new _) proxiedSession.world _
  have hexempt : (proxiedSession.after
      (.resolveName "b.test" none .application)).router.exemptions.coversEndpoint
        (.normalize (.v4 ⟨.of 240 0 0 1, 443⟩)) = false := by
    rw [router_after_resolveName]
    decide
  obtain ⟨-, -, -, decision, hasked, -⟩ := dial_uses_name _ hreachable .plain (by decide) hexempt
    reverseName_after_resolveName
  rw [router_after_resolveName, notes_after_resolveName] at hasked
  rcases hasked with ⟨hentry, -⟩ | ⟨-, answer, -, hnotes⟩
  · simp [bindName, proxiedSession, Router.new] at hentry
  · exact ⟨answer, hnotes⟩

end Session

end Egress
