import Egress.Proofs.DirectTargets
import Egress.Proofs.NameRoute

/-!
What becomes of a synthetic address after it was handed out. It is never without a name again: the
name that takes its slot takes the address over at once. Dialing it is dialing for the name that
holds it by then, and nothing that is asked, looked up or sent is about the one before.
-/

namespace Egress

namespace SyntheticTable

theorem slotOf?_bind (t : SyntheticTable) (name : String) (a : Ipv4) :
    (t.bind name).table.slotOf? a = t.slotOf? a := by
  cases h : t.names[name]? <;> simp [bind, h, slotOf?, isSynthetic]

theorem size_slots_le_bind (t : SyntheticTable) (name : String) :
    t.slots.size ≤ (t.bind name).table.slots.size := by
  cases h : t.names[name]? with
  | some slot => simp only [bind, h, Nat.le_refl]
  | none =>
      simp only [bind, h, size_slots_allocate]
      split <;> omega

/-- Binding gives slots to names and never takes the name out of one without putting another in. -/
theorem isSome_nameOf?_bind {t : SyntheticTable} {a : Ipv4} (h : (t.nameOf? a).isSome = true)
    (name : String) : ((t.bind name).table.nameOf? a).isSome = true := by
  obtain ⟨held, hheld⟩ := Option.isSome_iff_exists.1 h
  obtain ⟨slot, hslot, hname⟩ := Option.bind_eq_some_iff.1 hheld
  have hlt : slot < (t.bind name).table.slots.size :=
    Nat.lt_of_lt_of_le (Array.getElem?_eq_some_iff.1 hname).1 (t.size_slots_le_bind name)
  rw [nameOf?, slotOf?_bind, hslot]
  simp [hlt]

end SyntheticTable

namespace Session

variable {π ρ : Type}

theorem resolveName_synthetic {s : Session π ρ} {name : String} {service : Option String}
    {intent : ResolveIntent} {address : SocketAddr4}
    (h : (s.resolveName name service intent).1 = .synthetic address) :
    address.ip = (s.router.table.bind name).address ∧
      (s.resolveName name service intent).2.router.table = (s.router.table.bind name).table := by
  unfold resolveName at h ⊢
  split
  · rename_i hpass
    rw [if_pos hpass] at h
    cases h
  · rename_i hpass
    rw [if_neg hpass] at h
    cases h
    exact ⟨rfl, rfl⟩

end Session

namespace Router

/-- The routers before which a name was resolved to an address, at some time, and whatever else was
called since. -/
inductive HandedOut (name : String) (a : Ipv4) : Router → Prop
  | resolved {π ρ : Type} {r : Router} (h : Reachable r) (world : World π ρ)
      (service : Option String) (intent : ResolveIntent) (port : UInt16)
      (answer : ((⟨r, world⟩ : Session π ρ).resolveName name service intent).1 =
        .synthetic ⟨a, port⟩) :
      HandedOut name a ((⟨r, world⟩ : Session π ρ).resolveName name service intent).2.router
  | call {π ρ : Type} [PolicyEngine π] [Resolver ρ] {r : Router} (h : HandedOut name a r)
      (world : World π ρ) (call : Session.Call) :
      HandedOut name a ((⟨r, world⟩ : Session π ρ).after call).router

theorem HandedOut.held {name : String} {a : Ipv4} {r : Router} (h : r.HandedOut name a) :
    ∃ holder, r.table.nameOf? a = some holder := by
  rw [← Option.isSome_iff_exists]
  induction h with
  | @resolved _ _ r h world service intent port answer =>
      obtain ⟨l, hl⟩ := h.mirrors
      obtain ⟨haddress, htable⟩ := Session.resolveName_synthetic answer
      have hback : (r.table.bind name).table.nameOf? a = some name := by
        rw [show a = (r.table.bind name).address from haddress, hl.nameOf?_bind]
      rw [htable, hback]
      rfl
  | call h world call ih =>
      rcases Session.table_after ⟨_, world⟩ call with hsame | ⟨bound, -, hbind⟩
      · rw [hsame]
        exact ih
      · rw [hbind]
        exact SyntheticTable.isSome_nameOf?_bind ih bound

end Router

namespace Session

variable {π ρ : Type} [PolicyEngine π] [Resolver ρ]

/-- `t` is `s` after a dial for this name at this port. The decision is the one about the name, and
no other name is asked about, looked up or told to a proxy. -/
structure DialedFor (s t : Session (RecordedPolicy π) (RecordedResolver ρ)) (name : String)
    (port : UInt16) : Prop where
  asked : ∃ asked, t.world.policy.notes = s.world.policy.notes ++ asked ∧ asked.length ≤ 1 ∧
    ∀ q ∈ asked, q.name = name ∧ q.port = port
  direct : (s.askName name port).1 = .direct → ∃ answer opened,
    t.world.resolver.notes = s.world.resolver.notes ++ [⟨name, port, answer⟩] ∧
    t.world.network.sockets = s.world.network.sockets ++ opened ∧
    ∀ socket ∈ opened, ∀ candidate ∈ socket.targets, ∃ found,
      answer = .ok found ∧ candidate ∈ found
  proxied : ∀ proxy, (s.askName name port).1 = .socks5 proxy → ∃ opened,
    t.world.resolver.notes = s.world.resolver.notes ∧
    t.world.network.sockets = s.world.network.sockets ++ opened ∧ opened.length ≤ 1 ∧
    ∀ socket ∈ opened, socket.targets ⊆ [.v4 proxy] ∧ ∃ request,
      Socks.connectRequest (.domain name) port = .ok request ∧
      socket.sent <+: Socks.greeting ++ request

theorem dialedFor_dial {s : Session (RecordedPolicy π) (RecordedResolver ρ)} {target : SocketAddr}
    {a : Ipv4} {port : UInt16} {name : String}
    (htarget : Endpoint.normalize target = .new (.v4 a) port)
    (hexempt : s.router.exemptions.coversEndpoint (.normalize target) = false)
    (hbound : s.reverseName a = some name) : s.DialedFor (s.dial target).2 name port := by
  obtain ⟨decision, c, d, hdecision, hname, hendpoint, hnow, hnetwork, hresolver, hpolicy, hdirect,
    hproxied⟩ := s.dial_of_bound htarget hexempt hbound
  refine ⟨?_, fun hd => ?_, fun proxy hd => ?_⟩
  · rw [hpolicy]
    exact s.router.cache.query_notes ..
  · obtain ⟨-, hworld⟩ := hdirect (hdecision.trans hd)
    obtain ⟨hlookup, opened, hopened, htargets⟩ :=
      d.directDial_opens s.router.table s.router.ceiling hname
    rw [hendpoint, hresolver] at hlookup htargets
    rw [hnetwork] at hopened
    refine ⟨_, opened, ?_, ?_, htargets⟩
    · rw [hworld, hlookup]
      rfl
    · rw [hworld, hopened]
  · obtain ⟨-, hworld⟩ := hproxied proxy (hdecision.trans hd)
    obtain ⟨opened, hopened, hone, htold⟩ := d.proxiedDial_tells s.router.ceiling hname proxy
    rw [hendpoint] at htold
    refine ⟨opened, ?_, ?_, hone, htold⟩
    · rw [hworld, d.resolver_proxiedDial, hresolver]
    · rw [hworld, hopened, hnetwork]

/-- An address that was handed out for a name is dialed, whatever was called since, for the name
that holds it by now. Once the binding is gone that is another name, and of the one that lost it
nothing is asked, looked up or told to a proxy. -/
theorem dial_of_handedOut (s : Session (RecordedPolicy π) (RecordedResolver ρ)) {name : String}
    {a : Ipv4} {port : UInt16} {target : SocketAddr} (hhanded : s.router.HandedOut name a)
    (htarget : target.Carries a port)
    (hexempt : s.router.exemptions.coversEndpoint (.normalize target) = false) :
    s.bare.dial target = ((s.dial target).1, (s.dial target).2.bare) ∧
    ∃ holder, s.reverseName a = some holder ∧ (s.reverseName a ≠ some name → holder ≠ name) ∧
      s.DialedFor (s.dial target).2 holder port := by
  obtain ⟨holder, hholder⟩ := hhanded.held
  refine ⟨s.dial_bare target, holder, hholder, ?_, ?_⟩
  · rintro hgone rfl
    exact hgone hholder
  · exact dialedFor_dial htarget.normalize_eq hexempt hholder

omit [PolicyEngine π] [Resolver ρ] in
/-- Looking a name up changes nothing in the world but the journal. -/
theorem world_resolveName (s : Session π ρ) (name : String) (service : Option String)
    (intent : ResolveIntent) : ∃ journal,
      (s.resolveName name service intent).2.world = { s.world with journal } := by
  unfold resolveName
  split
  · exact ⟨_, rfl⟩
  · simp only [bindName, World.breadcrumb]
    split <;> exact ⟨_, rfl⟩

/-- The session with room for one name after that name was evicted. -/
def evictedSession := (narrowSession.after (.resolveName "a.test" none .application)).after
  (.resolveName "b.test" none .application)

theorem router_evictedSession : evictedSession.router =
    { narrowSession.router with table :=
      ((narrowSession.router.table.bind "a.test").table.bind "b.test").table } := by
  obtain ⟨journal, hworld⟩ := narrowSession.world_resolveName "a.test" none .application
  have hroutable : Exemptions.coversName
      (narrowSession.after (.resolveName "a.test" none .application)).world.localName "b.test" =
        false := by
    rw [after, hworld]
    change Exemptions.coversName narrowSession.world.localName "b.test" = false
    decide +kernel
  obtain ⟨t, ht, hrouter, -⟩ := resolveName_of_routable hroutable none
  rw [evictedSession, after, ht]
  exact hrouter.trans (by rw [router_narrowSession])

theorem mirrors_evictedSession :
    evictedSession.router.table.Mirrors ⟨240, 1, ["a.test", "b.test"]⟩ := by
  rw [router_evictedSession]
  exact ((SyntheticTable.Mirrors.empty 240 1).bind "a.test").bind "b.test"

theorem world_evictedSession : ∃ journal,
    evictedSession.world = { narrowSession.world with journal } := by
  obtain ⟨first, hfirst⟩ := narrowSession.world_resolveName "a.test" none .application
  obtain ⟨last, hlast⟩ := (narrowSession.resolveName "a.test" none .application).2.world_resolveName
    "b.test" none .application
  rw [hfirst] at hlast
  exact ⟨last, hlast⟩

theorem reverseName_evictedSession :
    evictedSession.reverseName (.of 240 0 0 1) = some "b.test" :=
  (mirrors_evictedSession.nameOf?_eq _).trans (by decide)

theorem coversEndpoint_evictedSession :
    evictedSession.router.exemptions.coversEndpoint
      (.normalize (.v4 ⟨.of 240 0 0 1, 443⟩)) = false := by
  rw [router_evictedSession]
  decide

theorem resolveName_narrowSession :
    (narrowSession.resolveName "a.test" none .application).1 = .synthetic ⟨.of 240 0 0 1, 0⟩ := by
  have hroutable : Exemptions.coversName narrowSession.world.localName "a.test" = false := by
    decide +kernel
  obtain ⟨t, ht, -⟩ := resolveName_of_routable hroutable none
  have hanswer := ((SyntheticTable.Mirrors.empty 240 1).answer (.bind "a.test")).1
  have haddress : (narrowSession.router.table.bind "a.test").address = .of 240 0 0 1 :=
    (TableAnswer.bound.inj hanswer).1
  rw [ht, haddress]
  rfl

theorem askName_evictedSession : (evictedSession.askName "b.test" 443).1 = .direct := by
  obtain ⟨journal, hworld⟩ := world_evictedSession
  have hcache : evictedSession.router.cache = narrowSession.router.cache := by
    rw [router_evictedSession]
  have hpolicy : evictedSession.world.policy = narrowSession.world.policy := by rw [hworld]
  rw [(askName_congr hcache hpolicy "b.test" 443).1]
  have hnamed : "b.test" ≠ "" := by decide
  have hported : (443 : UInt16) ≠ 0 := by decide
  rcases narrowSession.askName_cases hnamed hported with ⟨hentry, -⟩ | ⟨-, hasked, -⟩
  · simp [narrowSession, Router.new] at hentry
  · rw [hasked]
    rfl

/-- It is the name that took the slot that is looked up when the address is dialed. -/
theorem dial_of_handedOut_evicted :
    evictedSession.router.HandedOut "a.test" (.of 240 0 0 1) ∧
      evictedSession.reverseName (.of 240 0 0 1) ≠ some "a.test" ∧ ∃ answer,
        (evictedSession.dial (.v4 ⟨.of 240 0 0 1, 443⟩)).2.world.resolver.notes =
          evictedSession.world.resolver.notes ++ [⟨"b.test", 443, answer⟩] := by
  have hhanded : evictedSession.router.HandedOut "a.test" (.of 240 0 0 1) :=
    .call (.resolved (.new _) narrowSession.world none .application 0 resolveName_narrowSession) _ _
  obtain ⟨-, holder, hholder, -, hdialed⟩ :=
    dial_of_handedOut evictedSession hhanded .plain coversEndpoint_evictedSession
  rw [reverseName_evictedSession] at hholder ⊢
  obtain rfl := Option.some.inj hholder
  obtain ⟨answer, -, hlookup, -⟩ := hdialed.direct askName_evictedSession
  exact ⟨hhanded, by decide, answer, hlookup⟩

/-- The address of the name that lost its slot is dialed, and leads to the other name's peer. -/
theorem dial_of_evicted_connects :
    (narrowSession.resolveName "a.test" none .application).1 = .synthetic ⟨.of 240 0 0 1, 0⟩ ∧
      evictedSession.reverseName (.of 240 0 0 1) = some "b.test" ∧
      evictedSession.router.exemptions.coversEndpoint
        (.normalize (.v4 ⟨.of 240 0 0 1, 443⟩)) = false ∧
      (evictedSession.dial (.v4 ⟨.of 240 0 0 1, 443⟩)).1 = .ok (some 1000) := by
  refine ⟨resolveName_narrowSession, reverseName_evictedSession, coversEndpoint_evictedSession, ?_⟩
  obtain ⟨journal, hworld⟩ := world_evictedSession
  have hreal : Dialer.isReal evictedSession.router.table (.v4 ⟨.of 192 0 2 2, 443⟩) = true := by
    simp only [Dialer.isReal, SocketAddr.ip, SyntheticTable.isSynthetic,
      mirrors_evictedSession.block]
    rfl
  have hnormal : Endpoint.normalize (.v4 ⟨.of 240 0 0 1, 443⟩) = .new (.v4 (.of 240 0 0 1)) 443 :=
    rfl
  obtain ⟨decision, c, d, hdecision, hname, hendpoint, hnow, hnetwork, hresolver, -, hdirect, -⟩ :=
    evictedSession.dial_of_bound hnormal coversEndpoint_evictedSession reverseName_evictedSession
  rw [(hdirect (hdecision.trans askName_evictedSession)).1]
  -- Of the world of the dial only the journal is not known, which no outcome depends on.
  obtain ⟨now, journal, network, resolver⟩ := d
  simp only [hworld] at hnow hnetwork hresolver
  subst hnow hnetwork hresolver
  have hfound : (Resolver.resolve narrowSession.world.resolver narrowSession.world.now "b.test"
      443).1 = .ok [.v4 ⟨.of 192 0 2 2, 443⟩] := rfl
  simp only [Dialer.directDial, Dialer.candidates, hname, hendpoint, hfound, List.filter, hreal]
  rfl

end Session

end Egress
