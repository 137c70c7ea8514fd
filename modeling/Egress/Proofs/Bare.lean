import Egress.Proofs.Recorded
import Egress.Router.Operations

/-!
Recorders are not noticed. Taking the notes away from a session commutes with everything a router
does, so what the notes say of a recorded engine and a recorded resolver is true of the bare ones.
-/

namespace Egress

variable {π ρ : Type}

namespace Dialer

def bare (d : Dialer (RecordedResolver ρ)) : Dialer ρ where
  now := d.now
  journal := d.journal
  network := d.network
  resolver := d.resolver.resolver

theorem walk_bare (ceiling : Nat) (label : String) (d : Dialer (RecordedResolver ρ))
    (last : Option RouteError) (candidates : List SocketAddr) :
    walk ceiling label d.bare last candidates =
      ((walk ceiling label d last candidates).1,
        (walk ceiling label d last candidates).2.bare) := by
  induction candidates generalizing d last with
  | nil => rfl
  | cons candidate others ih =>
      cases hdial : d.network.dial ceiling candidate with
      | mk outcome network =>
          have hbare : d.bare.network.dial ceiling candidate = (outcome, network) := hdial
          cases outcome with
          | ok fd => simp only [walk, hdial, hbare]; rfl
          | error e =>
              simp only [walk, hdial, hbare]
              exact ih { d with
                journal := d.journal.breadcrumb Crumbs.dial
                  s!"direct candidate {candidate.text} for {label} failed: {e.message}"
                network } (some e)

theorem tunnel_bare (d : Dialer (RecordedResolver ρ)) (ceiling : Nat) (c : DialContext)
    (proxy : SocketAddr4) :
    d.bare.tunnel ceiling c proxy =
      ((d.tunnel ceiling c proxy).1, (d.tunnel ceiling c proxy).2.bare) := by
  simp only [tunnel]
  cases Socks.connectRequest c.target c.endpoint.port with
  | error fault => rfl
  | ok request =>
      cases hdial : d.network.dial ceiling (.v4 proxy) with
      | mk outcome network =>
          have hbare : d.bare.network.dial ceiling (.v4 proxy) = (outcome, network) := hdial
          simp only [hbare]
          cases outcome with
          | error e => rfl
          | ok fd =>
              simp only
              cases network.onSocket fd (negotiate ceiling request) with
              | mk answer network => cases answer <;> rfl

theorem proxiedDial_bare (d : Dialer (RecordedResolver ρ)) (ceiling : Nat) (c : DialContext)
    (proxy : SocketAddr4) :
    d.bare.proxiedDial ceiling c proxy =
      ((d.proxiedDial ceiling c proxy).1, (d.proxiedDial ceiling c proxy).2.bare) := by
  simp only [proxiedDial, tunnel_bare]
  cases d.tunnel ceiling c proxy with
  | mk outcome d => cases outcome <;> rfl

variable [Resolver ρ]

theorem candidates_bare (d : Dialer (RecordedResolver ρ)) (table : SyntheticTable)
    (c : DialContext) :
    d.bare.candidates table c = ((d.candidates table c).1, (d.candidates table c).2.bare) := by
  cases hname : c.name with
  | none => simp only [candidates, hname]
  | some name =>
      cases hresolve : Resolver.resolve d.resolver.resolver d.now name c.endpoint.port with
      | mk answer resolver =>
          have hbare : Resolver.resolve d.bare.resolver d.bare.now name c.endpoint.port =
            (answer, resolver) := hresolve
          have hrecorded : Resolver.resolve d.resolver d.now name c.endpoint.port =
              (answer, ⟨resolver, d.resolver.notes ++ [⟨name, c.endpoint.port, answer⟩]⟩) := by
            simp only [Resolver.resolve, hresolve]
          simp only [candidates, hname, hbare, hrecorded]
          cases answer with
          | error e => rfl
          | ok found => simp only; split <;> rfl

theorem directDial_bare (d : Dialer (RecordedResolver ρ)) (table : SyntheticTable) (ceiling : Nat)
    (c : DialContext) :
    d.bare.directDial table ceiling c =
      ((d.directDial table ceiling c).1, (d.directDial table ceiling c).2.bare) := by
  simp only [directDial, candidates_bare]
  cases d.candidates table c with
  | mk answer d =>
      cases answer with
      | error e => rfl
      | ok found =>
          simp only [walk_bare]
          cases d.walk ceiling c.label none found with
          | mk outcome d => cases outcome <;> rfl

theorem establish_bare (d : Dialer (RecordedResolver ρ)) (table : SyntheticTable) (ceiling : Nat)
    (e : Endpoint) (decision : Decision) :
    d.bare.establish table ceiling e decision =
      ((d.establish table ceiling e decision).1,
        (d.establish table ceiling e decision).2.bare) := by
  simp only [establish]
  cases DialContext.of table e decision with
  | error _ => rfl
  | ok c =>
      cases decision with
      | direct => exact d.directDial_bare table ceiling c
      | socks5 proxy => exact d.proxiedDial_bare ceiling c proxy

end Dialer

namespace Session

def bare (s : Session (RecordedPolicy π) (RecordedResolver ρ)) : Session π ρ where
  router := s.router
  world := {
    toDialer := s.world.toDialer.bare
    hostAnswer := s.world.hostAnswer
    policy := s.world.policy.engine }

variable [PolicyEngine π] [Resolver ρ] (s : Session (RecordedPolicy π) (RecordedResolver ρ))

omit [Resolver ρ] in
theorem askName_bare (name : String) (port : UInt16) :
    s.bare.askName name port = ((s.askName name port).1, (s.askName name port).2.bare) := by
  have hquery : s.bare.router.cache.query s.bare.world.policy s.bare.world.journal
      s.bare.world.now name port = _ :=
    DecisionCache.query_engine s.router.cache s.world.policy s.world.journal s.world.now name port
  simp only [askName, hquery]
  rfl

omit [Resolver ρ] in
theorem route_bare (target : SocketAddr) :
    s.bare.route target = ((s.route target).1, (s.route target).2.bare) := by
  have hask := s.askName_bare (DecisionCache.nameFor s.router.table (.normalize target))
    (Endpoint.normalize target).port
  cases hcovers : s.router.exemptions.coversEndpoint (.normalize target) with
  | true =>
      have hbare : s.bare.router.exemptions.coversEndpoint (.normalize target) = true := hcovers
      simp only [route, hcovers, hbare, if_true]
      rfl
  | false =>
      have hbare : s.bare.router.exemptions.coversEndpoint (.normalize target) = false := hcovers
      simp only [route, hcovers, hbare, askEndpoint, Bool.false_eq_true, if_false]
      exact congrArg (fun r => (Route.ofDecision (.normalize target) r.1, r.2)) hask

omit [PolicyEngine π] [Resolver ρ] in
theorem bindName_bare (name : String) :
    s.bare.bindName name = ((s.bindName name).1, (s.bindName name).2.bare) := by
  have htable : s.bare.router.table = s.router.table := rfl
  simp only [bindName, htable]
  cases (s.router.table.bind name).evicted <;> rfl

omit [PolicyEngine π] [Resolver ρ] in
theorem resolveName_bare (name : String) (service : Option String) (intent : ResolveIntent) :
    s.bare.resolveName name service intent =
      ((s.resolveName name service intent).1, (s.resolveName name service intent).2.bare) := by
  have hlocal : s.bare.world.localName = s.world.localName := rfl
  simp only [resolveName, hlocal, bindName_bare]
  split <;> rfl

omit [Resolver ρ] in
theorem routeName_bare (name : String) (port : UInt16) :
    s.bare.routeName name port = ((s.routeName name port).1, (s.routeName name port).2.bare) := by
  have hlocal : s.bare.world.localName = s.world.localName := rfl
  simp only [routeName, hlocal, route_bare, askName_bare, bindName_bare]
  split
  · rfl
  · split <;> rfl

omit [PolicyEngine π] in
theorem dialAs_bare (e : Endpoint) (decision : Decision) :
    s.bare.dialAs e decision = ((s.dialAs e decision).1, (s.dialAs e decision).2.bare) := by
  have hestablish := s.world.toDialer.establish_bare s.router.table s.router.ceiling e decision
  cases hrun : s.world.toDialer.establish s.router.table s.router.ceiling e decision with
  | mk outcome d =>
      have hbare : s.bare.world.toDialer.establish s.bare.router.table s.bare.router.ceiling e
          decision = (outcome, d.bare) := hestablish.trans (by rw [hrun])
      simp only [dialAs, hrun, hbare]
      cases outcome with
      | ok fd => cases decision <;> rfl
      | error e => rfl

/-- Dialing with recorders and dialing without them end alike. -/
theorem dial_bare (target : SocketAddr) :
    s.bare.dial target = ((s.dial target).1, (s.dial target).2.bare) := by
  simp only [dial, route_bare]
  cases s.route target with
  | mk route s =>
      cases route with
      | bypass => rfl
      | direct e => simp only [dialAs_bare]
      | proxied e proxy => simp only [dialAs_bare]

omit [PolicyEngine π] [Resolver ρ] in
theorem swap_bare (fd replacement : Descriptor) :
    s.bare.swap fd replacement =
      ((s.swap fd replacement).1, (s.swap fd replacement).2.bare) := by
  cases hrun : s.world.network.replace fd replacement with
  | mk answer network =>
      have hbare : s.bare.world.network.replace fd replacement = (answer, network) := hrun
      simp only [swap, hrun, hbare]
      cases answer <;> rfl

theorem connect_bare (fd : Descriptor) (target : SocketAddr) :
    s.bare.connect fd target = ((s.connect fd target).1, (s.connect fd target).2.bare) := by
  cases hstream : s.world.network.isStream fd with
  | false =>
      have hbare : s.bare.world.network.isStream fd = false := hstream
      simp only [connect, hstream, hbare, Bool.false_eq_true, if_false]
  | true =>
      have hbare : s.bare.world.network.isStream fd = true := hstream
      simp only [connect, hstream, hbare, if_true, dial_bare]
      cases s.dial target with
      | mk outcome s =>
          cases outcome with
          | error e => rfl
          | ok opened =>
              cases opened with
              | none => rfl
              | some replacement => simp only [swap_bare]

end Session

end Egress
