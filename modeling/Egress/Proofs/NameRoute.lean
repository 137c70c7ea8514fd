import Egress.Proofs.NamedDial

/-!
Two ways to route a name: at once, or by looking it up first and routing the address that the lookup
gives. The second binds the name before it asks for a decision and has to find the name again from
the address, the first asks before it binds. They agree all the same: on the route, on what the
engine is asked, and on the table and the decisions they leave.
-/

namespace Egress

variable {π ρ : Type}

namespace DecisionCache

theorem settle_journal (c : DecisionCache) (j k : Journal) (now later : Nat) (name : String)
    (port : UInt16) (reading : Reading) :
    (c.settle j now name port reading).1 = (c.settle k later name port reading).1 ∧
      (c.settle j now name port reading).2.1 = (c.settle k later name port reading).2.1 := by
  cases reading <;> exact ⟨rfl, rfl⟩

/-- The journal is written to and never read, and only its lines depend on the time. -/
theorem query_journal [PolicyEngine π] (c : DecisionCache) (policy : π) (j k : Journal)
    (now later : Nat) (name : String) (port : UInt16) :
    (c.query policy j now name port).decision = (c.query policy k later name port).decision ∧
      (c.query policy j now name port).cache = (c.query policy k later name port).cache ∧
      (c.query policy j now name port).policy = (c.query policy k later name port).policy := by
  unfold query
  split
  · exact ⟨rfl, rfl, rfl⟩
  · split
    · exact ⟨rfl, rfl, rfl⟩
    · obtain ⟨hdecision, hcache⟩ := settle_journal { c with misses := c.misses + 1 } j k now later
        name port (read (PolicyEngine.evaluate policy c.application name port).1)
      exact ⟨hdecision, hcache, rfl⟩

end DecisionCache

namespace Session

/-- The route of a name by way of its address. What the lookup passes on is routed by its value if
it is a numeric host, and is exempt otherwise. -/
def routeLookedUp [PolicyEngine π] (s : Session π ρ) (name : String) (port : UInt16) :
    Route × Session π ρ :=
  match s.resolveName name (some (toString port.toNat)) .application with
  | (.synthetic address, s) => s.route (.v4 address)
  | (.passthrough, s) =>
      match NumericHost.read? name with
      | some ip => s.route (SocketAddr.of ip port)
      | none => (.bypass, s)

theorem servicePort_toString (port : UInt16) :
    servicePort (some (toString port.toNat)) = port := by
  have htrim : Text.trim (toString port.toNat) = toString port.toNat := by
    refine Text.trim_of_isBlank_eq_false fun c hc => ?_
    rw [Nat.toString_eq_repr, Nat.toList_repr] at hc
    exact Text.isBlank_of_isDigit (Nat.isDigit_of_mem_toDigits (by decide) (by decide) hc)
  simp only [servicePort, Option.map_some, htrim, Option.bind_some, Text.port?_toString,
    Option.getD_some]

theorem resolveName_of_exempt {s : Session π ρ} {name : String}
    (h : Exemptions.coversName s.world.localName name = true) (service : Option String)
    (intent : ResolveIntent) : s.resolveName name service intent = (.passthrough, s) := by
  simp only [resolveName, h, or_true, if_true]

theorem resolveName_of_routable {s : Session π ρ} {name : String}
    (h : Exemptions.coversName s.world.localName name = false) (service : Option String) :
    ∃ t : Session π ρ, s.resolveName name service .application =
        (.synthetic ⟨(s.router.table.bind name).address, servicePort service⟩, t) ∧
      t.router = { s.router with table := (s.router.table.bind name).table } ∧
      t.world.policy = s.world.policy := by
  have hpass : ¬(ResolveIntent.application ≠ .application ∨
      Exemptions.coversName s.world.localName name = true) := by simp [h]
  simp only [resolveName, if_neg hpass]
  refine ⟨_, rfl, rfl, ?_⟩
  simp only [World.breadcrumb, bindName]
  split <;> rfl

variable [PolicyEngine π]

/-- What is asked and decided depends on the cache and the engine only. -/
theorem askName_congr {s t : Session π ρ} (hcache : s.router.cache = t.router.cache)
    (hpolicy : s.world.policy = t.world.policy) (name : String) (port : UInt16) :
    (s.askName name port).1 = (t.askName name port).1 ∧
      (s.askName name port).2.router.cache = (t.askName name port).2.router.cache ∧
      (s.askName name port).2.world.policy = (t.askName name port).2.world.policy := by
  simp only [askName, hcache, hpolicy]
  exact DecisionCache.query_journal ..

theorem routeName_of_routable {s : Session π ρ} {name : String}
    (h : Exemptions.coversName s.world.localName name = false) (port : UInt16) :
    ∃ t : Session π ρ,
      s.routeName name port = (Route.ofDecision
        (.new (.v4 (s.router.table.bind name).address) port) (s.askName name port).1, t) ∧
      t.router.table = (s.router.table.bind name).table ∧
      t.router.cache = (s.askName name port).2.router.cache ∧
      t.world.policy = (s.askName name port).2.world.policy := by
  have hnumeric := (Exemptions.routable_of_coversName h).not_numeric
  simp only [routeName, hnumeric, h, Bool.false_eq_true, if_false]
  refine ⟨_, rfl, rfl, rfl, ?_⟩
  simp only [World.breadcrumb, bindName]
  split <;> rfl

/-- The address that the name was bound to leads back to the name, and so to the same question. -/
theorem routeLookedUp_of_routable {s : Session π ρ} (hreachable : s.router.Reachable)
    {name : String} (h : Exemptions.coversName s.world.localName name = false) {port : UInt16}
    (hexempt : s.router.exemptions.coversEndpoint
      (.new (.v4 (s.router.table.bind name).address) port) = false) :
    ∃ t : Session π ρ,
      s.routeLookedUp name port = (Route.ofDecision
        (.new (.v4 (s.router.table.bind name).address) port) (t.askName name port).1,
        (t.askName name port).2) ∧
      t.router = { s.router with table := (s.router.table.bind name).table } ∧
      t.world.policy = s.world.policy := by
  obtain ⟨l, hl⟩ := hreachable.mirrors
  have hback : DecisionCache.nameFor (s.router.table.bind name).table
      (.new (.v4 (s.router.table.bind name).address) port) = name :=
    DecisionCache.nameFor_named rfl (hl.nameOf?_bind name)
  obtain ⟨t, hlookup, hrouter, hpolicy⟩ := resolveName_of_routable h (some (toString port.toNat))
  rw [servicePort_toString] at hlookup
  have hnormal : Endpoint.normalize (.v4 ⟨(s.router.table.bind name).address, port⟩) =
    .new (.v4 (s.router.table.bind name).address) port := rfl
  have hroute : t.route (.v4 ⟨(s.router.table.bind name).address, port⟩) = (Route.ofDecision
      (.new (.v4 (s.router.table.bind name).address) port) (t.askName name port).1,
      (t.askName name port).2) := by
    simp only [route, hnormal, hrouter, hexempt, Bool.false_eq_true, if_false, askEndpoint, hback]
    rfl
  exact ⟨t, by simp only [routeLookedUp, hlookup, hroute], hrouter, hpolicy⟩

theorem routeName_eq_routeLookedUp {s : Session π ρ} (hreachable : s.router.Reachable)
    {name : String} {port : UInt16}
    (hexempt : Exemptions.coversName s.world.localName name = false →
      s.router.exemptions.coversEndpoint
        (.new (.v4 (s.router.table.bind name).address) port) = false) :
    (s.routeName name port).1 = (s.routeLookedUp name port).1 ∧
      (s.routeName name port).2.router.table = (s.routeLookedUp name port).2.router.table ∧
      (s.routeName name port).2.router.cache = (s.routeLookedUp name port).2.router.cache ∧
      (s.routeName name port).2.world.policy = (s.routeLookedUp name port).2.world.policy := by
  cases hcovers : Exemptions.coversName s.world.localName name with
  | true =>
      have hlookup := resolveName_of_exempt hcovers (some (toString port.toNat)) .application
      cases hnumeric : NumericHost.read? name with
      | some ip =>
          -- Both are the route of the numeric host, from the same state.
          simp only [routeLookedUp, hlookup, routeName, hnumeric]
          exact ⟨trivial, trivial, trivial, trivial⟩
      | none =>
          simp only [routeLookedUp, hlookup, routeName, hnumeric, hcovers, if_true]
          exact ⟨trivial, rfl, rfl, rfl⟩
  | false =>
      obtain ⟨t, ht, htable, hcache, hpolicy⟩ := routeName_of_routable hcovers port
      obtain ⟨u, hu, hrouter, hengine⟩ :=
        routeLookedUp_of_routable hreachable hcovers (hexempt hcovers)
      have hutable : u.router.table = (s.router.table.bind name).table := by rw [hrouter]
      obtain ⟨hdecision, hentries, hasked⟩ :=
        askName_congr (by rw [hrouter]) hengine name port
      rw [ht, hu, hdecision]
      exact ⟨rfl, htable.trans hutable.symm, hcache.trans hentries.symm,
        hpolicy.trans hasked.symm⟩

theorem routeLookedUp_bare (s : Session (RecordedPolicy π) (RecordedResolver ρ)) (name : String)
    (port : UInt16) : s.bare.routeLookedUp name port =
      ((s.routeLookedUp name port).1, (s.routeLookedUp name port).2.bare) := by
  simp only [routeLookedUp, resolveName_bare]
  cases s.resolveName name (some (toString port.toNat)) .application with
  | mk answer t =>
      cases answer with
      | synthetic address => exact t.route_bare (.v4 address)
      | passthrough =>
          simp only
          split
          · exact t.route_bare _
          · rfl

/-- From any state a router gets into, routing a name and routing the address it is looked up as
give the same route, ask the engine the same and leave the same table and the same decisions, also
where binding the name takes the slot of another, where the name is exempt or a numeric host, and
for port 0. -/
theorem routeName_agrees_with_lookup (s : Session (RecordedPolicy π) (RecordedResolver ρ))
    (hreachable : s.router.Reachable) (name : String) (port : UInt16)
    (hexempt : Exemptions.coversName s.world.localName name = false →
      s.router.exemptions.coversEndpoint
        (.new (.v4 (s.router.table.bind name).address) port) = false) :
    let atOnce := s.routeName name port
    let lookedUp := s.routeLookedUp name port
    s.bare.routeName name port = (atOnce.1, atOnce.2.bare) ∧
      s.bare.routeLookedUp name port = (lookedUp.1, lookedUp.2.bare) ∧
      atOnce.1 = lookedUp.1 ∧
      atOnce.2.world.policy.notes = lookedUp.2.world.policy.notes ∧
      atOnce.2.world.policy.engine = lookedUp.2.world.policy.engine ∧
      atOnce.2.router.table = lookedUp.2.router.table ∧
      atOnce.2.router.cache = lookedUp.2.router.cache := by
  intro atOnce lookedUp
  obtain ⟨hroute, htable, hcache, hpolicy⟩ := routeName_eq_routeLookedUp hreachable hexempt
  exact ⟨s.routeName_bare name port, s.routeLookedUp_bare name port, hroute,
    congrArg RecordedPolicy.notes hpolicy, congrArg RecordedPolicy.engine hpolicy, htable, hcache⟩

open Rehearsal in
/-- A session whose table has room for one name. -/
def narrowSession : Session (RecordedPolicy (Prompter (Except PolicyError PolicyAnswer)))
    (RecordedResolver (Directory (UInt16 → Except ResolveError (List SocketAddr)))) where
  router := .new { RouterConfig.standard "app" with capacity := 1 }
  world := {
    now := 0
    journal := { processId := 1 }
    network := { peers := [{ address := .v4 ⟨.of 192 0 2 2, 443⟩ }] }
    resolver := ⟨⟨[], fun _ => .ok [.v4 ⟨.of 192 0 2 2, 443⟩], []⟩, []⟩
    hostAnswer := none
    policy := ⟨⟨[], .ok {}, []⟩, []⟩ }

theorem router_narrowSession :
    (narrowSession.after (.resolveName "a.test" none .application)).router =
      { narrowSession.router with table := (narrowSession.router.table.bind "a.test").table } := by
  have hroutable : Exemptions.coversName narrowSession.world.localName "a.test" = false := by
    decide +kernel
  obtain ⟨t, ht, hrouter, -⟩ := resolveName_of_routable hroutable none
  rw [after, ht]
  exact hrouter

theorem mirrors_narrowSession :
    (narrowSession.after (.resolveName "a.test" none .application)).router.table.Mirrors
      ⟨240, 1, ["a.test"]⟩ := by
  rw [router_narrowSession]
  exact (SyntheticTable.Mirrors.empty 240 1).bind "a.test"

/-- The name routed here takes the slot of the name bound before. -/
theorem routeName_agrees_with_lookup_when_full :
    let s := narrowSession.after (.resolveName "a.test" none .application)
    s.reverseName (.of 240 0 0 1) = some "a.test" ∧
      (s.router.table.bind "b.test").address = .of 240 0 0 1 ∧
      (s.routeName "b.test" 443).1 = (s.routeLookedUp "b.test" 443).1 ∧
      (s.routeName "b.test" 443).2.world.policy.notes =
        (s.routeLookedUp "b.test" 443).2.world.policy.notes ∧
      (s.routeName "b.test" 443).2.router.table =
        (s.routeLookedUp "b.test" 443).2.router.table := by
  intro s
  have hreachable : s.router.Reachable := .call (.new _) _ _
  have hbound : s.reverseName (.of 240 0 0 1) = some "a.test" :=
    (mirrors_narrowSession.nameOf?_eq _).trans (by decide)
  have haddress : (s.router.table.bind "b.test").address = .of 240 0 0 1 := by
    have hanswer := (mirrors_narrowSession.answer (.bind "b.test")).1
    exact (TableAnswer.bound.inj hanswer).1
  have hexempt : s.router.exemptions.coversEndpoint (.new (.v4 (.of 240 0 0 1)) 443) = false := by
    rw [router_narrowSession]
    decide
  obtain ⟨-, -, hroute, hnotes, -, htable, -⟩ :=
    routeName_agrees_with_lookup s hreachable "b.test" 443 fun _ => haddress ▸ hexempt
  exact ⟨hbound, haddress, hroute, hnotes, htable⟩

end Session

end Egress
