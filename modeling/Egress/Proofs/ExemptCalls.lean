import Egress.Proofs.Accounting
import Egress.Proofs.NameRoute
import Egress.Proofs.Swap

/-!
Calls that a router passes on. Whether it is a route, a connection or a name that was asked for, a
call that is answered without one has left no trace: the session is the one before it, or has
counted one exempt destination more.
-/

namespace Egress

theorem Route.ofDecision_ne_bypass (e : Endpoint) (decision : Decision) :
    ofDecision e decision ≠ bypass := by
  cases decision <;> nofun

namespace Session

variable {π ρ : Type} [PolicyEngine π] [Resolver ρ] (s : Session π ρ)

/-- The answer leaves the destination to the caller. -/
def Passes : Call → Prop
  | .route target => (s.route target).1 = .bypass
  | .routeName name port => (s.routeName name port).1 = .bypass
  | .resolveName name service intent => (s.resolveName name service intent).1 = .passthrough
  | .reverseName _ => False
  | .dial target => (s.dial target).1 = .ok none
  | .connect fd target => (s.connect fd target).1 = .passthrough

omit [PolicyEngine π] [Resolver ρ] in
/-- Not for the router, whatever the destination: a descriptor that is no stream, and a lookup that
is not an application's or whose name gets no synthetic address. -/
def Ignores : Call → Prop
  | .resolveName name _ intent =>
      intent ≠ .application ∨ Exemptions.coversName s.world.localName name = true
  | .connect fd _ => s.world.network.isStream fd = false
  | _ => False

omit [Resolver ρ] in
theorem route_of_exempt {target : SocketAddr}
    (h : s.router.exemptions.coversEndpoint (.normalize target) = true) :
    s.route target = (.bypass, s.countBypass) := by
  simp only [route, h, if_true]

omit [Resolver ρ] in
theorem route_bypass_iff (target : SocketAddr) : (s.route target).1 = .bypass ↔
    s.router.exemptions.coversEndpoint (.normalize target) = true := by
  cases hexempt : s.router.exemptions.coversEndpoint (.normalize target) with
  | true => simp only [s.route_of_exempt hexempt]
  | false =>
      simp only [route, hexempt, Bool.false_eq_true, if_false, iff_false]
      exact Route.ofDecision_ne_bypass _ _

theorem dial_none_iff (target : SocketAddr) : (s.dial target).1 = .ok none ↔
    s.router.exemptions.coversEndpoint (.normalize target) = true := by
  rw [(s.dial_accounted target).1]
  cases hexempt : s.router.exemptions.coversEndpoint (.normalize target) <;>
    simp [account, dialed?, exempts, endpoint?, hexempt]

omit [Resolver ρ] in
theorem routeName_of_exempt {name : String} {port : UInt16}
    (h : s.exempts (.routeName name port) = true) :
    s.routeName name port = (.bypass, s.countBypass) := by
  cases hip : NumericHost.read? name with
  | some ip =>
      simp only [exempts, endpoint?, hip, Option.map_some] at h
      simp only [routeName, hip, s.route_of_exempt h]
  | none =>
      simp only [exempts, endpoint?, hip, Option.map_none] at h
      simp only [routeName, hip, h, if_true]

omit [Resolver ρ] in
theorem routeName_bypass_iff (name : String) (port : UInt16) :
    (s.routeName name port).1 = .bypass ↔ s.exempts (.routeName name port) = true := by
  cases hexempt : s.exempts (.routeName name port) with
  | true => simp only [s.routeName_of_exempt hexempt]
  | false =>
      rw [iff_false_right Bool.false_ne_true]
      cases hip : NumericHost.read? name with
      | some ip =>
          simp only [exempts, endpoint?, hip, Option.map_some] at hexempt
          simp only [routeName, hip, s.route_bypass_iff, hexempt, Bool.false_eq_true,
            not_false_eq_true]
      | none =>
          simp only [exempts, endpoint?, hip, Option.map_none] at hexempt
          simp only [routeName, hip, hexempt, Bool.false_eq_true, if_false]
          exact Route.ofDecision_ne_bypass _ _

omit [PolicyEngine π] [Resolver ρ] in
theorem resolveName_passthrough_iff (name : String) (service : Option String)
    (intent : ResolveIntent) : (s.resolveName name service intent).1 = .passthrough ↔
      intent ≠ .application ∨ Exemptions.coversName s.world.localName name = true := by
  unfold resolveName
  split <;> rename_i hpass
  · exact iff_of_true rfl hpass
  · exact iff_of_false nofun hpass

/-- A destination that is exempt is counted, and nothing else happens. -/
theorem after_of_exempts {call : Call} (h : s.exempts call = true) :
    s.after call = s.countBypass := by
  cases call with
  | route target => exact congrArg Prod.snd (s.route_of_exempt h)
  | routeName name port => exact congrArg Prod.snd (s.routeName_of_exempt h)
  | resolveName | reverseName => cases h
  | dial target => exact congrArg Prod.snd (s.dial_of_exempt h)
  | connect fd target =>
      cases hstream : s.world.network.isStream fd with
      | false => simp [exempts, endpoint?, hstream] at h
      | true =>
          simp only [exempts, endpoint?, hstream, if_true] at h
          simp only [after, connect, hstream, if_true, s.dial_of_exempt h]

theorem after_of_ignores {call : Call} (h : s.Ignores call) : s.after call = s := by
  cases call with
  | route | routeName | reverseName | dial => exact h.elim
  | resolveName name service intent =>
      have hpass : intent ≠ .application ∨
        Exemptions.coversName s.world.localName name = true := h
      simp only [after, resolveName, if_pos hpass]
  | connect fd target =>
      have hstream : s.world.network.isStream fd = false := h
      simp only [after, connect, hstream, Bool.false_eq_true, if_false]

/-- A call is passed on if its destination is exempt or if it is not for the router, and in no other
case. -/
theorem passes_iff (call : Call) : s.Passes call ↔ s.exempts call = true ∨ s.Ignores call := by
  cases call with
  | route target => exact (s.route_bypass_iff target).trans (or_iff_left not_false).symm
  | routeName name port =>
      exact (s.routeName_bypass_iff name port).trans (or_iff_left not_false).symm
  | resolveName name service intent =>
      exact (s.resolveName_passthrough_iff name service intent).trans
        (or_iff_right Bool.false_ne_true).symm
  | reverseName address => exact (or_iff_right Bool.false_ne_true).symm
  | dial target => exact (s.dial_none_iff target).trans (or_iff_left not_false).symm
  | connect fd target =>
      cases hstream : s.world.network.isStream fd with
      | false => simp [Passes, Ignores, connect, hstream]
      | true =>
          simp only [Passes, Ignores, s.connect_passthrough_iff hstream, exempts, endpoint?, hstream,
            if_true, Bool.true_eq_false, or_false]

theorem passes_bare (s : Session (RecordedPolicy π) (RecordedResolver ρ)) (call : Call) :
    s.bare.Passes call ↔ s.Passes call := by
  rw [passes_iff, passes_iff]
  cases call <;> rfl

/-- A call that is passed on has no effect. The engine and the resolver are not asked, no socket is
opened and no descriptor changed, the table and the decisions stay as they are, and nothing is
written. If it was for the router, which found the destination exempt, that is counted. -/
theorem after_of_passes (s : Session (RecordedPolicy π) (RecordedResolver ρ)) (call : Call)
    (h : s.Passes call) :
    s.bare.Passes call ∧ s.bare.after call = (s.after call).bare ∧
    (s.exempts call = true ∨ s.Ignores call) ∧
    (s.after call).world = s.world ∧
    (s.after call).router =
      { s.router with bypassed := s.router.bypassed + (s.exempts call).toNat } := by
  refine ⟨(s.passes_bare call).2 h, s.after_bare call, (s.passes_iff call).1 h, ?_⟩
  cases hexempts : s.exempts call with
  | true =>
      rw [s.after_of_exempts hexempts]
      exact ⟨rfl, rfl⟩
  | false =>
      have hignores := ((s.passes_iff call).1 h).resolve_left (by rw [hexempts]; nofun)
      rw [s.after_of_ignores hignores]
      exact ⟨rfl, rfl⟩

theorem after_of_passes_loopback :
    let call : Call := .dial (.v6 { ip := Ipv6.ofMapped (.of 127 0 0 1), port := 80 })
    proxiedSession.Passes call ∧ (proxiedSession.after call).router.bypassed = 1 ∧
      (proxiedSession.after call).world.policy.notes = [] ∧
      (proxiedSession.after call).world.resolver.notes = [] := by
  intro call
  have hexempts : proxiedSession.exempts call = true := by decide
  have hpasses : proxiedSession.Passes call := (proxiedSession.passes_iff call).2 (.inl hexempts)
  obtain ⟨-, -, -, hworld, hrouter⟩ := proxiedSession.after_of_passes call hpasses
  rw [hworld, hrouter, hexempts]
  exact ⟨hpasses, rfl, rfl, rfl⟩

end Session

end Egress
