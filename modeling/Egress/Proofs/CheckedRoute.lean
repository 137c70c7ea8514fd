import Egress.Main
import Egress.Proofs.Arguments
import Egress.Proofs.DecisionKeys
import Egress.Proofs.ExemptCalls
import Egress.Proofs.OwnAddresses
import Egress.Proofs.Printed
import Egress.Proofs.RuleHistory
import Egress.Proofs.Unbound
import Egress.Proofs.Wildcards

/-!
The route that the command line program prints, and its way to the proxy that the arguments name.
The arguments become rules, the rules an answer in text, the text a decision, and any of these steps
may fall back to a direct connection. A run asks for a single decision, so the cache in front of the
policy is empty and the policy itself decides.
-/

namespace Egress

/-- Rules for patterns are all alike, and come after the rules there are. -/
theorem RulePolicy.decide_foldl_install [Text.Covering] (p : RulePolicy)
    (patterns : List String) (action : Decision) (application host : String) :
    (patterns.foldl (fun p pattern => (p.install none (.ofPattern pattern) action).2) p).decide
        application host =
      ((p.rules.find? (·.covers application host)).map Rule.action).getD
        (if ∃ pattern ∈ patterns, (HostMatcher.ofPattern pattern).covers host = true then action
          else p.fallback) := by
  induction patterns generalizing p with
  | nil =>
      simp only [List.foldl_nil, decide, List.not_mem_nil, false_and, exists_false, if_false]
      cases p.rules.find? (·.covers application host) <;> rfl
  | cons pattern patterns ih =>
      have hcovers (id : Nat) :
          Rule.covers ⟨id, none, .ofPattern pattern, action⟩ application host =
            (HostMatcher.ofPattern pattern).covers host := rfl
      rw [List.foldl_cons, ih]
      simp only [install, List.find?_append, Option.map_none, List.mem_cons, exists_eq_or_imp]
      cases p.rules.find? (·.covers application host) with
      | some rule => rfl
      | none =>
          cases hpattern : (HostMatcher.ofPattern pattern).covers host <;>
            simp [hcovers, hpattern]

theorem DecisionCache.not_live_iff {table : SyntheticTable} {e : Endpoint} : ¬Live table e ↔
    ∃ a, e.ip = .v4 a ∧ table.isSynthetic a = true ∧ table.nameOf? a = none := by
  simp only [Live, not_forall, not_exists, ← ne_eq, ← Option.eq_none_iff_forall_ne_some,
    exists_prop]

/-- A dial of a synthetic address without a name fails before anything is opened. -/
theorem Session.dial_of_stale {π ρ : Type} [PolicyEngine π] [Resolver ρ] (s : Session π ρ)
    {target : SocketAddr}
    (hexempt : s.router.exemptions.coversEndpoint (.normalize target) = false)
    (hstale : ¬DecisionCache.Live s.router.table (.normalize target)) :
    ∃ a, (s.dial target).1 = .error (.staleSyntheticAddress a) := by
  obtain ⟨a, hip, hblock, hfree⟩ := DecisionCache.not_live_iff.1 hstale
  refine ⟨a, ?_⟩
  simp only [s.dial_eq_dialAs hexempt, s.askEndpoint_of_unbound hip hblock hfree, dialAs,
    Dialer.establish_of_unbound _ hip hblock hfree]
  rfl

namespace CommandLine

namespace Settings

/-- The host is one for the proxy: there are no patterns, or one of them covers it, whatever the
case of their letters. -/
def Selects (s : Settings) (host : String) : Prop :=
  s.via = [] ∨ ∃ pattern ∈ s.via,
    Text.Wildcard.Fits (fun p c => p.toLower = c.toLower) pattern.toList host.toList

theorem decide_policy [Text.Covering] (hexact : Text.Covering.Exact) {s : Settings}
    {proxy : SocketAddr4} (h : s.proxy = some proxy) (application host : String) :
    (s.Selects host → s.policy.decide application host = .socks5 proxy) ∧
      (¬s.Selects host → s.policy.decide application host = .direct) := by
  simp only [Selects, ← HostMatcher.covers_ofPattern_iff hexact, policy, h, List.isEmpty_iff]
  by_cases hvia : s.via = []
  · simp [hvia, RulePolicy.decide]
  · simp only [hvia, if_false, false_or, RulePolicy.decide_foldl_install]
    exact ⟨fun hcovered => by simp [hcovered], fun hcovered => by simp [hcovered]⟩

end Settings

variable {ν : Type} {settings : Settings}

/-- A session of a run up to its first decision: it has the policy that is asked for and the
standard exemptions. -/
structure Fresh (settings : Settings) (s : Session RulePolicy (CachedLookup ν)) : Prop where
  reachable : s.router.Reachable
  undecided : ∀ k : String, s.router.cache.entries[k]? = none
  exemptions : s.router.exemptions = .standard
  policy : s.world.policy = settings.policy

namespace Fresh

variable {s t : Session RulePolicy (CachedLookup ν)}

theorem start (settings : Settings) (processName : String) (world : World Unit ν) :
    Fresh settings (startSession settings processName world) where
  reachable := .new _
  undecided _ := Std.HashMap.getElem?_empty
  exemptions := rfl
  policy := rfl

/-- The journal, the network and the name service have no part in it. -/
theorem congr (h : Fresh settings s) (hrouter : t.router = s.router)
    (hpolicy : t.world.policy = s.world.policy) : Fresh settings t where
  reachable := hrouter ▸ h.reachable
  undecided := hrouter ▸ h.undecided
  exemptions := hrouter ▸ h.exemptions
  policy := hpolicy.trans h.policy

theorem resolveName [NameService ν] (h : Fresh settings s) {name : String}
    (hcovers : Exemptions.coversName s.world.localName name = false) (service : Option String) :
    Fresh settings (s.resolveName name service .application).2 := by
  have hreachable := h.reachable.call s.world (.resolveName name service .application)
  obtain ⟨t, ht, hrouter, hpolicy⟩ := Session.resolveName_of_routable hcovers service
  have hafter : s.after (.resolveName name service .application) = t := by
    simp only [Session.after, ht]
  have hcache : t.router.cache = s.router.cache := by rw [hrouter]
  rw [ht]
  constructor
  · exact hafter ▸ hreachable
  · exact hcache ▸ h.undecided
  · rw [hrouter]
    exact h.exemptions
  · exact hpolicy.trans h.policy

variable [Text.Covering]

theorem route_of_stale (h : Fresh settings s) {target : SocketAddr}
    (hexempt : Exemptions.standard.coversEndpoint (.normalize target) = false)
    (hstale : ¬DecisionCache.Live s.router.table (.normalize target)) :
    (s.route target).1 = .direct (.normalize target) := by
  obtain ⟨a, hip, hblock, hfree⟩ := DecisionCache.not_live_iff.1 hstale
  simp only [Session.route, h.exemptions, hexempt, Bool.false_eq_true, if_false,
    s.askEndpoint_of_unbound hip hblock hfree, Route.ofDecision]

/-- Nothing is kept yet, so the policy decides, or rather what its answer is read as. -/
theorem route_of_live (h : Fresh settings s) {target : SocketAddr}
    (hexempt : Exemptions.standard.coversEndpoint (.normalize target) = false)
    (hlive : DecisionCache.Live s.router.table (.normalize target)) (hport : target.port ≠ 0) :
    (s.route target).1 = .ofDecision (.normalize target) (PolicyAnswer.meaning
      (.ok (.ofDecision (settings.policy.decide s.router.cache.application
        (DecisionCache.nameFor s.router.table (.normalize target))) settings.policy.noCache))) := by
  have hname : DecisionCache.nameFor s.router.table (.normalize target) ≠ "" := by
    refine DecisionCache.nameFor_ne_empty (fun a ha => ?_) hlive
    exact (h.reachable.routable "" (SyntheticTable.mem_slots_of_nameOf? ha)).ne_empty rfl
  have hasked : (s.route target).1 = .ofDecision (.normalize target)
      (s.askEndpoint (.normalize target)).1 := by
    simp only [Session.route, h.exemptions, hexempt, Bool.false_eq_true, if_false]
  rw [hasked]
  rcases s.askName_cases hname hport with ⟨hentry, -⟩ | ⟨-, hanswer, -⟩
  · rw [h.undecided] at hentry
    cases hentry
  · rw [h.policy] at hanswer
    exact congrArg _ hanswer

/-- A proxy with a port survives being answered in text. -/
theorem route_of_proxy (hexact : Text.Covering.Exact) (h : Fresh settings s)
    {proxy : SocketAddr4} (hproxy : settings.proxy = some proxy) (hproxyPort : proxy.port ≠ 0)
    {target : SocketAddr}
    (hexempt : Exemptions.standard.coversEndpoint (.normalize target) = false)
    (hlive : DecisionCache.Live s.router.table (.normalize target)) (hport : target.port ≠ 0) :
    let name := DecisionCache.nameFor s.router.table (.normalize target)
    (settings.Selects name → (s.route target).1 = .proxied (.normalize target) proxy) ∧
      (¬settings.Selects name → (s.route target).1 = .direct (.normalize target)) := by
  intro name
  obtain ⟨hselected, hother⟩ :=
    Settings.decide_policy hexact hproxy s.router.cache.application name
  have husable : (Decision.socks5 proxy).Usable := hproxyPort
  rw [h.route_of_live hexempt hlive hport]
  constructor
  · intro hselects
    rw [hselected hselects, PolicyAnswer.meaning_ofDecision husable]
    rfl
  · intro hselects
    rw [hother hselects]
    rfl

/-- A proxy without a port is named in an answer that cannot be used. -/
theorem route_of_portless (hexact : Text.Covering.Exact) (h : Fresh settings s)
    {proxy : SocketAddr4} (hproxy : settings.proxy = some proxy) (hportless : proxy.port = 0)
    {target : SocketAddr}
    (hexempt : Exemptions.standard.coversEndpoint (.normalize target) = false)
    (hlive : DecisionCache.Live s.router.table (.normalize target)) (hport : target.port ≠ 0) :
    (s.route target).1 = .direct (.normalize target) := by
  have hdecides := Settings.decide_policy hexact hproxy s.router.cache.application
    (DecisionCache.nameFor s.router.table (.normalize target))
  have hunusable : PolicyAnswer.meaning
      (.ok (.ofDecision (.socks5 proxy) settings.policy.noCache)) = .direct := by
    simp only [PolicyAnswer.meaning, PolicyAnswer.ofDecision, Option.bind_some,
      Ipv4.read?_trim_text, hportless, if_true]
  rw [h.route_of_live hexempt hlive hport]
  by_cases hselects :
    settings.Selects (DecisionCache.nameFor s.router.table (.normalize target))
  · rw [hdecides.1 hselects, hunusable]
    rfl
  · rw [hdecides.2 hselects]
    rfl

end Fresh

theorem fresh_announced (settings : Settings) (processName : String) (world : World Unit ν) :
    Fresh settings (announced settings (startRun settings processName world)).session :=
  (Fresh.start settings processName world).congr rfl rfl

open Program

theorem address_bind_start (settings : Settings) (processName : String) (world : World Unit ν)
    (host : String) :
    ((startSession settings processName world).router.table.bind host).address = .of 240 0 0 1 := by
  have hfree : (startSession settings processName world).router.table.names[host]? = none :=
    Std.HashMap.getElem?_empty
  simp only [SyntheticTable.bind, hfree]
  rfl

theorem routable_of_synthetic {processName host : String} {port : UInt16}
    {world : World Unit ν} {address : SocketAddr4}
    (h : ((startSession settings processName world).resolveName host
      (some (toString port.toNat)) .application).1 = .synthetic address) :
    Exemptions.coversName world.localName host = false ∧ address = ⟨.of 240 0 0 1, port⟩ := by
  let s := startSession settings processName world
  cases hcovers : Exemptions.coversName s.world.localName host with
  | true =>
      rw [Session.resolveName_of_exempt hcovers] at h
      cases h
  | false =>
      obtain ⟨t, ht, -⟩ := Session.resolveName_of_routable hcovers (some (toString port.toNat))
      rw [ht, Session.servicePort_toString, address_bind_start] at h
      exact ⟨hcovers, (NameResolution.synthetic.inj h).symm⟩

section Run

variable [NameService ν]

theorem resolveTarget_of_numeric {host : String} {ip : IpAddr}
    (h : NumericHost.read? host = some ip) (port : UInt16) (r : Run ν) :
    resolveTarget host port r = (.ok (SocketAddr.of ip port), r) := by
  simp only [resolveTarget, h]
  rfl

theorem resolveTarget_of_routable {r : Run ν} (h : Fresh settings r.session) {host : String}
    (hcovers : Exemptions.coversName r.session.world.localName host = false) (port : UInt16) :
    ∃ t : Run ν, resolveTarget host port r =
        (.ok (.v4 ⟨(r.session.router.table.bind host).address, port⟩), t) ∧
      t.output = r.output ∧ Fresh settings t.session ∧
      t.session.router.table = (r.session.router.table.bind host).table := by
  have hfresh := h.resolveName hcovers (some (toString port.toNat))
  have hnumeric := (Exemptions.routable_of_coversName hcovers).not_numeric
  obtain ⟨s, hs, hrouter, -⟩ :=
    Session.resolveName_of_routable hcovers (some (toString port.toNat))
  rw [Session.servicePort_toString] at hs
  rw [hs] at hfresh
  refine ⟨flush { r with session := s }, ?_, rfl, hfresh.congr rfl rfl,
    congrArg Router.table hrouter⟩
  simp only [resolveTarget, hnumeric, bind_apply, act_apply, hs]
  rfl

/-- A target keeps the port, and there is one unless the host is a name that is exempt. -/
theorem resolveTarget_spec {r : Run ν} (h : Fresh settings r.session) (host : String)
    (port : UInt16) :
    let resolved := resolveTarget host port r
    Fresh settings resolved.2.session ∧ resolved.2.output = r.output ∧
      (∀ target, resolved.1 = .ok target → target.port = port) ∧
      ∀ message, resolved.1 = .error message → NumericHost.read? host = none ∧
        Exemptions.coversName r.session.world.localName host = true := by
  intro resolved
  cases hnumeric : NumericHost.read? host with
  | some ip =>
      simp only [resolved, resolveTarget_of_numeric hnumeric]
      refine ⟨h, trivial, ?_, nofun⟩
      rintro _ ⟨⟩
      exact SocketAddr.port_of ip port
  | none =>
      cases hcovers : Exemptions.coversName r.session.world.localName host with
      | false =>
          obtain ⟨t, ht, houtput, hfresh, -⟩ := resolveTarget_of_routable h hcovers port
          simp only [resolved, ht]
          refine ⟨hfresh, houtput, ?_, nofun⟩
          rintro _ ⟨⟩
          rfl
      | true =>
          have hpass := Session.resolveName_of_exempt hcovers (some (toString port.toNat))
            .application
          simp only [resolved, resolveTarget, hnumeric, bind_apply, act_apply, hpass]
          rcases (lookupPlain (flush r).session host).1 with reason | _ | ⟨ip, others⟩
          · exact ⟨h.congr rfl rfl, rfl, nofun, fun _ _ => ⟨trivial, trivial⟩⟩
          · exact ⟨h.congr rfl rfl, rfl, nofun, fun _ _ => ⟨trivial, trivial⟩⟩
          · refine ⟨h.congr rfl rfl, rfl, ?_, nofun⟩
            rintro _ ⟨⟩
            exact SocketAddr.port_of ip port

variable [Text.Covering]

theorem connectTo_of_stale (settings : Settings) {target : SocketAddr} {r : Run ν}
    (hexempt : r.session.router.exemptions.coversEndpoint (.normalize target) = false)
    (hstale : ¬DecisionCache.Live r.session.router.table (.normalize target)) :
    ∃ message t, connectTo settings target r = (.error message, t) ∧ t.output = r.output := by
  obtain ⟨a, hdial⟩ := Session.dial_of_stale (flush r).session hexempt hstale
  simp only [connectTo, bind_apply, act_apply, hdial]
  exact ⟨_, _, rfl, rfl⟩

theorem checkRoute_of_numeric {r : Run ν} {ip : IpAddr} {route : Route}
    (h : NumericHost.read? settings.host = some ip)
    (hroute : ((announced settings r).session.route (SocketAddr.of ip settings.port)).1 = route) :
    ∃ u, checkRoute settings r = (.ok (SocketAddr.of ip settings.port, route), u) := by
  subst hroute
  exact ⟨_, checkRoute_of_resolved (resolveTarget_of_numeric h settings.port _)⟩

theorem checkRoute_eq_error {r u : Run ν} (h : Fresh settings (announced settings r).session)
    {message : String} (hchecked : checkRoute settings r = (.error message, u)) :
    u.output = r.output ∧ NumericHost.read? settings.host = none ∧
      Exemptions.coversName r.session.world.localName settings.host = true := by
  obtain ⟨-, houtput, -, hname⟩ := resolveTarget_spec h settings.host settings.port
  rcases hresolved : resolveTarget settings.host settings.port (announced settings r) with
    ⟨reason | target, t⟩
  · rw [checkRoute_of_unresolved hresolved] at hchecked
    cases hchecked
    rw [hresolved] at houtput hname
    exact ⟨houtput, hname _ rfl⟩
  · rw [checkRoute_of_resolved hresolved] at hchecked
    cases hchecked

theorem checkRoute_eq_ok {r u : Run ν} (h : Fresh settings (announced settings r).session)
    {target : SocketAddr} {route : Route}
    (hchecked : checkRoute settings r = (.ok (target, route), u)) :
    ∃ t : Run ν, Fresh settings t.session ∧ t.output = r.output ∧ target.port = settings.port ∧
      (t.session.route target).1 = route ∧
      u = flush { t with session := (t.session.route target).2 } := by
  obtain ⟨hfresh, houtput, hport, -⟩ := resolveTarget_spec h settings.host settings.port
  rcases hresolved : resolveTarget settings.host settings.port (announced settings r) with
    ⟨message | found, t⟩
  · rw [checkRoute_of_unresolved hresolved] at hchecked
    cases hchecked
  · rw [checkRoute_of_resolved hresolved] at hchecked
    cases hchecked
    rw [hresolved] at hfresh houtput hport
    exact ⟨t, hfresh, houtput, hport _ rfl, rfl, rfl⟩

/-- The host's address is no exempt one and leads back to the host, which is what is decided. -/
theorem checkRoute_of_routable (hexact : Text.Covering.Exact) (processName : String)
    {world : World Unit ν}
    (hcovers : Exemptions.coversName world.localName settings.host = false) {proxy : SocketAddr4}
    (hproxy : settings.proxy = some proxy) (hproxyPort : proxy.port ≠ 0)
    (hport : settings.port ≠ 0) :
    let target : SocketAddr := .v4 ⟨.of 240 0 0 1, settings.port⟩
    ∃ route u,
      checkRoute settings (startRun settings processName world) = (.ok (target, route), u) ∧
        (settings.Selects settings.host → route = .proxied (.normalize target) proxy) ∧
        (¬settings.Selects settings.host → route = .direct (.normalize target)) := by
  intro target
  let r := announced settings (startRun settings processName world)
  have hfresh : Fresh settings r.session := fresh_announced settings processName world
  obtain ⟨l, hl⟩ := hfresh.reachable.mirrors
  have haddress : (r.session.router.table.bind settings.host).address = .of 240 0 0 1 :=
    address_bind_start settings processName world settings.host
  obtain ⟨t, hresolved, -, ht, htable⟩ := resolveTarget_of_routable hfresh hcovers settings.port
  have hback : t.session.router.table.nameOf? (.of 240 0 0 1) = some settings.host := by
    rw [htable, ← haddress]
    exact hl.nameOf?_bind settings.host
  have hname : DecisionCache.nameFor t.session.router.table (.normalize target) = settings.host :=
    DecisionCache.nameFor_named rfl hback
  have hlive : DecisionCache.Live t.session.router.table (.normalize target) :=
    DecisionCache.live_v4.2 fun _ => ⟨_, hback⟩
  have hexempt : Exemptions.standard.coversEndpoint (.normalize target) = false := by
    change Exemptions.standard.coversEndpoint (.new (.v4 (.of 240 0 0 1)) settings.port) = false
    rfl
  have hroute := ht.route_of_proxy hexact hproxy hproxyPort hexempt hlive hport
  rw [hname] at hroute
  rw [haddress] at hresolved
  exact ⟨_, _, checkRoute_of_resolved hresolved, hroute⟩

theorem run_of_stale {arguments : List String} {processName : String} {world : World Unit ν}
    (hparse : Settings.parse arguments = .ok settings) {target : SocketAddr} {route : Route}
    {u : Run ν}
    (h : checkRoute settings (startRun settings processName world) = (.ok (target, route), u))
    (houtput : u.output = "")
    (hexempt : u.session.router.exemptions.coversEndpoint (.normalize target) = false)
    (hstale : ¬DecisionCache.Live u.session.router.table (.normalize target)) :
    (run processName arguments world).output = route.text target ++ "\n" ∧
      (run processName arguments world).code = 1 := by
  let printed : Run ν := { u with output := route.text target ++ "\n" }
  obtain ⟨message, t, hfailed, hsame⟩ := connectTo_of_stale settings (r := printed) hexempt hstale
  obtain ⟨hreport, hcode⟩ := run_of_checked hparse h houtput
  rw [hfailed] at hreport hcode
  exact ⟨hreport.trans hsame, hcode message rfl⟩

/-- No host slips past the proxy that the command line names last. A run prints the route that it
checks, and there is one unless the host is a name that is exempt and is not found. Nothing but
exempt targets is bypassed. Without patterns all others go through the proxy, and a host that gets a
synthetic address goes through it exactly if one of the patterns covers the host. A synthetic
address that no host has is routed directly, but the run ends there without connecting. The matcher
may be any whose patterns cover what fits them. -/
theorem run_keeps_to_proxy (hexact : Text.Covering.Exact) (processName : String)
    (world : World Unit ν) {arguments : List String}
    (hparse : Settings.parse arguments = .ok settings) {proxy : SocketAddr4}
    (hproxy : settings.proxy = some proxy) (hproxyPort : proxy.port ≠ 0)
    (hport : settings.port ≠ 0) :
    let report := run processName arguments world
    let checked := checkRoute settings (startRun settings processName world)
    (∃ items, arguments = items.flatMap Argument.words ∧ settings.Asked items) ∧
    (∀ message u, checked = (.error message, u) →
      NumericHost.read? settings.host = none ∧
        Exemptions.coversName world.localName settings.host = true ∧
        report.code = 1 ∧ report.output = "") ∧
    (∀ target route u, checked = (.ok (target, route), u) →
      let e := Endpoint.normalize target
      target.port = settings.port ∧
      (∃ rest, report.output = route.text target ++ "\n" ++ rest) ∧
      (route = .bypass ↔ Exemptions.standard.coversEndpoint e = true) ∧
      (route ≠ .bypass → DecisionCache.Live u.session.router.table e → settings.via = [] →
        route = .proxied e proxy) ∧
      (route ≠ .bypass → ¬DecisionCache.Live u.session.router.table e →
        route = .direct e ∧ report.output = route.text target ++ "\n" ∧ report.code = 1)) ∧
    ∀ address, ((startSession settings processName world).resolveName settings.host
        (some (toString settings.port.toNat)) .application).1 = .synthetic address →
      ∃ route u, checked = (.ok (.v4 address, route), u) ∧
        (route = .proxied (.normalize (.v4 address)) proxy ↔ settings.Selects settings.host) ∧
        (route = .proxied (.normalize (.v4 address)) proxy ∨
          route = .direct (.normalize (.v4 address))) := by
  intro report checked
  have hfresh := fresh_announced settings processName world
  refine ⟨Settings.parse_eq_ok_iff.1 hparse, ?_, ?_, ?_⟩
  · intro message u hchecked
    obtain ⟨houtput, hnumeric, hcovers⟩ := checkRoute_eq_error hfresh hchecked
    obtain ⟨hreport, hcode⟩ := run_of_unresolved hparse hchecked
    exact ⟨hnumeric, hcovers, hcode, hreport.trans houtput⟩
  · intro target route u hchecked e
    obtain ⟨t, ht, houtput, htarget, hroute, rfl⟩ := checkRoute_eq_ok hfresh hchecked
    have htable := t.session.table_route target
    have hexemptions := (t.session.exemptions_after (.route target)).trans ht.exemptions
    have hbypass := t.session.route_bypass_iff target
    rw [ht.exemptions, hroute] at hbypass
    have hexempt (hrouted : route ≠ .bypass) : Exemptions.standard.coversEndpoint e = false := by
      rw [← Bool.not_eq_true, ← hbypass]
      exact hrouted
    refine ⟨htarget, output_run_of_checked hparse hchecked houtput, hbypass, ?_, ?_⟩
    · intro hrouted hlive hvia
      have hproxied := ht.route_of_proxy hexact hproxy hproxyPort (hexempt hrouted) (htable ▸ hlive)
        (htarget ▸ hport)
      exact hroute ▸ hproxied.1 (.inl hvia)
    · intro hrouted hstale
      have hdirect := ht.route_of_stale (hexempt hrouted) (htable ▸ hstale)
      have hrefused := (congrArg (·.coversEndpoint e) hexemptions).trans (hexempt hrouted)
      exact ⟨hroute ▸ hdirect, run_of_stale hparse hchecked houtput hrefused hstale⟩
  · intro address haddress
    obtain ⟨hcovers, rfl⟩ := routable_of_synthetic haddress
    obtain ⟨route, u, hchecked, hselected, hother⟩ :=
      checkRoute_of_routable hexact processName hcovers hproxy hproxyPort hport
    refine ⟨route, u, hchecked, ?_⟩
    by_cases hselects : settings.Selects settings.host
    · rw [hselected hselects]
      exact ⟨iff_of_true rfl hselects, .inl rfl⟩
    · rw [hother hselects]
      exact ⟨iff_of_false nofun hselects, .inr rfl⟩

end Run

/-- The settings of a command line that asks for nothing but a proxy, patterns and port 443. -/
def proxiedSettings (proxy : SocketAddr4) (via : List String) (host : String) : Settings where
  proxy := some proxy
  via
  application := none
  timeout := RouterConfig.defaultCeiling
  verbose := false
  host
  port := 443

/-- The host is covered by the pattern but for the case of its letters. -/
theorem run_keeps_to_proxy_by_pattern :
    let settings := proxiedSettings ⟨.of 203 0 113 9, 1080⟩ ["*.Corp.test"] "WWW.corp.test"
    Settings.parse ["--proxy", "203.0.113.9:1080", "--via", "*.Corp.test", "WWW.corp.test",
        "443"] = .ok settings ∧
      ∃ u, checkRoute settings (startRun settings "driver" (offline 0)) =
        (.ok (.v4 ⟨.of 240 0 0 1, 443⟩,
          .proxied (.new (.v4 (.of 240 0 0 1)) 443) ⟨.of 203 0 113 9, 1080⟩), u) := by
  intro settings
  have hparse : Settings.parse ["--proxy", "203.0.113.9:1080", "--via", "*.Corp.test",
      "WWW.corp.test", "443"] = .ok settings :=
    Settings.parse_eq_ok_iff.2 ⟨[
      .proxy "203.0.113.9:1080" ⟨.of 203 0 113 9, 1080⟩ (by decide +kernel),
      .via "*.Corp.test",
      .positional "WWW.corp.test" (by decide +kernel),
      .positional "443" (by decide +kernel)],
      rfl, rfl, rfl, rfl, rfl, rfl, ⟨"443", rfl, rfl⟩, nofun⟩
  have hcovers : Exemptions.coversName (startSession settings "driver" (offline 0)).world.localName
      settings.host = false := by
    decide +kernel
  obtain ⟨s, hresolved, -⟩ := Session.resolveName_of_routable hcovers (some (toString 443))
  rw [address_bind_start] at hresolved
  have hcovered := (HostMatcher.covers_ofPattern_iff Text.Wildcard.exact_covering "*.Corp.test"
    "WWW.corp.test").1 (by decide +kernel)
  obtain ⟨-, -, -, hnamed⟩ :=
    run_keeps_to_proxy Text.Wildcard.exact_covering "driver" (offline 0) hparse rfl (by decide)
      (by decide)
  obtain ⟨route, u, hchecked, hproxied, -⟩ := hnamed _ (congrArg Prod.fst hresolved)
  obtain rfl := hproxied.2 (.inr ⟨_, List.mem_singleton_self _, hcovered⟩)
  exact ⟨hparse, u, hchecked⟩

theorem parse_plain {value host : String} {proxy : SocketAddr4}
    (hproxy : SocketAddr4.read? value = some proxy) (hhost : host.toList.head? ≠ some '-') :
    Settings.parse ["--proxy", value, host, "443"] = .ok (proxiedSettings proxy [] host) :=
  Settings.parse_eq_ok_iff.2 ⟨
    [.proxy value proxy hproxy, .positional host hhost, .positional "443" (by decide +kernel)],
    rfl, rfl, rfl, rfl, rfl, rfl, ⟨"443", rfl, rfl⟩, nofun⟩

/-- Targets that are not exempt, and still are routed past the proxy: an address of the synthetic
block that no host has, and any address if the proxy has no port. -/
theorem checkRoute_past_proxy :
    let unbound := proxiedSettings ⟨.of 203 0 113 9, 1080⟩ [] "240.0.0.9"
    let portless := proxiedSettings ⟨.of 203 0 113 9, 0⟩ [] "203.0.113.7"
    Settings.parse ["--proxy", "203.0.113.9:1080", "240.0.0.9", "443"] = .ok unbound ∧
      (∃ u, checkRoute unbound (startRun unbound "driver" (offline 0)) =
        (.ok (.v4 ⟨.of 240 0 0 9, 443⟩, .direct (.new (.v4 (.of 240 0 0 9)) 443)), u)) ∧
      Settings.parse ["--proxy", "203.0.113.9:0", "203.0.113.7", "443"] = .ok portless ∧
      ∃ u, checkRoute portless (startRun portless "driver" (offline 0)) =
        (.ok (.v4 ⟨.of 203 0 113 7, 443⟩, .direct (.new (.v4 (.of 203 0 113 7)) 443)), u) := by
  intro unbound portless
  refine ⟨parse_plain (by decide +kernel) (by decide +kernel), ?_,
    parse_plain (by decide +kernel) (by decide +kernel), ?_⟩
  · have hnumeric : NumericHost.read? unbound.host = some (.v4 (.of 240 0 0 9)) := by
      decide +kernel
    have hstale : ¬DecisionCache.Live (SyntheticTable.new 240 SyntheticTable.maxCapacity)
        (.normalize (.v4 ⟨.of 240 0 0 9, 443⟩)) :=
      DecisionCache.not_live_iff.2 ⟨.of 240 0 0 9, rfl, rfl, rfl⟩
    have hfresh := fresh_announced unbound "driver" (offline 0)
    exact checkRoute_of_numeric hnumeric (hfresh.route_of_stale (by decide) hstale)
  · have hnumeric : NumericHost.read? portless.host = some (.v4 (.of 203 0 113 7)) := by
      decide +kernel
    have hlive : DecisionCache.Live (SyntheticTable.new 240 SyntheticTable.maxCapacity)
        (.normalize (.v4 ⟨.of 203 0 113 7, 443⟩)) :=
      DecisionCache.live_v4.2 nofun
    have hfresh := fresh_announced portless "driver" (offline 0)
    exact checkRoute_of_numeric hnumeric
      (hfresh.route_of_portless Text.Wildcard.exact_covering rfl rfl (by decide) hlive (by decide))

end CommandLine

end Egress
