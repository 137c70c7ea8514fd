import Egress.Proofs.Bare
import Egress.Proofs.DecisionMemo
import Egress.Proofs.NamedDial
import Egress.Proofs.Run

/-!
The counters of a router as a balance of everything it was asked. Every call has an account: whether
its destination was exempt, how dialing it ended if it came to that, whether it asked the policy,
and what the engine was asked on its behalf. Over any run each counter is the number of the calls,
or of the questions to the engine, that it stands for.
-/

namespace Egress

variable {π ρ : Type}

/-- An answer that no decision is made of: a failure, or a proxy that cannot be used. -/
def PolicyAnswer.unusable (answer : Except PolicyError PolicyAnswer) : Bool :=
  match answer with
  | .error _ => true
  | .ok a => a.host.any fun host => (Ipv4.read? (Text.trim host)).isNone || a.port == 0

namespace DecisionCache

open PolicyAnswer

/-- An answer is either a failure or makes at most one entry. -/
theorem settle_counts (c : DecisionCache) (journal : Journal) (now : Nat) (name : String)
    (port : UInt16) (answer : Except PolicyError PolicyAnswer) :
    let r := (c.settle journal now name port (read answer)).2.1
    r.hits = c.hits ∧ r.misses = c.misses ∧ r.failures = c.failures + (unusable answer).toNat ∧
      r.size + r.failures ≤ c.size + c.failures + 1 := by
  have hsize (decision : Decision) :
      (c.entries.insert (key name port) decision).size ≤ c.entries.size + 1 :=
    Std.HashMap.size_insert_le
  have hkept (decision : Decision) (keep : Bool) :
      let r := (c.settle journal now name port (.usable decision keep)).2.1
      r.hits = c.hits ∧ r.misses = c.misses ∧ r.failures = c.failures ∧
        r.size + r.failures ≤ c.size + c.failures + 1 := by
    cases keep with
    | false => exact ⟨rfl, rfl, rfl, Nat.le_succ _⟩
    | true =>
        refine ⟨rfl, rfl, rfl, ?_⟩
        have := hsize decision
        simp only [settle, size, if_true]
        omega
  cases answer with
  | error e => exact ⟨rfl, rfl, rfl, Nat.le_refl _⟩
  | ok a =>
      cases hhost : a.host with
      | none =>
          simp only [read, unusable, hhost, Option.any_none]
          exact hkept _ _
      | some host =>
          cases hip : Ipv4.read? (Text.trim host) with
          | none =>
              simp only [read, unusable, hhost, hip, Option.any_some]
              exact ⟨rfl, rfl, rfl, Nat.le_refl _⟩
          | some ip =>
              by_cases hport : a.port = 0
              · simp only [read, unusable, hhost, hip, hport, Option.any_some, if_true]
                exact ⟨rfl, rfl, rfl, Nat.le_refl _⟩
              · simp only [read, unusable, hhost, hip, Option.any_some, if_neg hport,
                  Option.isNone_some, Bool.false_or, beq_eq_false_iff_ne.2 hport]
                exact hkept _ _

/-- A question with a name and a port is a hit or a miss, and each miss is a question to the
engine. -/
theorem query_counts [PolicyEngine π] (c : DecisionCache) (p : RecordedPolicy π)
    (journal : Journal) (now : Nat) (name : String) (port : UInt16) :
    let o := c.query p journal now name port
    ∃ asked, o.policy.notes = p.notes ++ asked ∧ o.cache.misses = c.misses + asked.length ∧
      o.cache.hits + o.cache.misses =
        c.hits + c.misses + (decide (name ≠ "" ∧ port ≠ 0)).toNat ∧
      o.cache.failures = c.failures + asked.countP (unusable ·.answer) ∧
      o.cache.size + o.cache.failures ≤ c.size + c.failures + asked.length := by
  by_cases htrivial : name = "" ∨ port = 0
  · have hnot : ¬(name ≠ "" ∧ port ≠ 0) := by
      rw [← not_or]
      exact not_not_intro htrivial
    rw [query_of_trivial c p journal now htrivial, decide_eq_false hnot]
    exact ⟨[], (List.append_nil _).symm, rfl, rfl, rfl, Nat.le_refl _⟩
  · obtain ⟨hname, hport⟩ := not_or.1 htrivial
    rw [decide_eq_true (And.intro hname hport)]
    cases hentry : c.entries[key name port]? with
    | some decision =>
        rw [query_of_hit c p journal now hname hport hentry]
        exact ⟨[], (List.append_nil _).symm, rfl, Nat.add_right_comm .., rfl, Nat.le_refl _⟩
    | none =>
        rw [query_of_miss c p journal now hname hport hentry]
        obtain ⟨hhits, hmisses, hfailures, hsize⟩ :=
          settle_counts { c with misses := c.misses + 1 } journal now name port
            (PolicyEngine.evaluate p c.application name port).1
        refine ⟨[⟨c.application, name, port, (PolicyEngine.evaluate p c.application name port).1⟩],
          rfl, hmisses, ?_, ?_, hsize⟩
        · simp only [hhits, hmisses]
          rfl
        · rw [List.countP_singleton]
          refine hfailures.trans ?_
          cases unusable (PolicyEngine.evaluate p c.application name port).1 <;> rfl

end DecisionCache

/-- How dialing an endpoint ended. -/
inductive Establishment
  | direct
  | proxied
  | failed
deriving DecidableEq

def Establishment.of (decision : Decision) : Except RouteError Descriptor → Establishment
  | .error _ => failed
  | .ok _ =>
      match decision with
      | .direct => direct
      | .socks5 _ => proxied

theorem Establishment.one_way (o : Option Establishment) :
    (if o == some direct then 1 else 0) + (if o == some proxied then 1 else 0) +
      (if o == some failed then 1 else 0) = if o.isSome then 1 else 0 := by
  cases o with
  | none => rfl
  | some e => cases e <;> rfl

def World.recorded (w : World π ρ) : World (RecordedPolicy π) (RecordedResolver ρ) where
  now := w.now
  journal := w.journal
  network := w.network
  resolver := ⟨w.resolver, []⟩
  hostAnswer := w.hostAnswer
  policy := ⟨w.policy, []⟩

namespace Session

/-- The endpoint that a call is about. A connect is about none if it is not on a stream socket, and
a name is about one only if it is numeric. -/
def endpoint? (s : Session π ρ) : Call → Option Endpoint
  | .route target => some (.normalize target)
  | .routeName name port =>
      (NumericHost.read? name).map fun ip => .normalize (SocketAddr.of ip port)
  | .resolveName _ _ _ => none
  | .reverseName _ => none
  | .dial target => some (.normalize target)
  | .connect fd target => if s.world.network.isStream fd then some (.normalize target) else none

/-- Whether the destination of a call is exempt from routing. -/
def exempts (s : Session π ρ) (call : Call) : Bool :=
  match s.endpoint? call, call with
  | some e, _ => s.router.exemptions.coversEndpoint e
  | none, .routeName name _ => Exemptions.coversName s.world.localName name
  | none, _ => false

/-- The name and the port that a call asks the policy about. -/
def question? (s : Session π ρ) (call : Call) : Option (String × UInt16) :=
  if s.exempts call then none
  else
    match s.endpoint? call, call with
    | some e, _ => some (DecisionCache.nameFor s.router.table e, e.port)
    | none, .routeName name port => some (name, port)
    | none, _ => none

/-- The endpoint that a call has established. -/
def dialed? (s : Session π ρ) (call : Call) : Option Endpoint :=
  match call with
  | .dial _ | .connect _ _ => if s.exempts call then none else s.endpoint? call
  | _ => none

variable [PolicyEngine π] [Resolver ρ]

/-- How dialing an endpoint ends after the policy was asked about it. -/
def establishment (s : Session π ρ) (e : Endpoint) : Establishment :=
  let (decision, t) := s.askEndpoint e
  .of decision
    (t.world.toDialer.establish t.router.table t.router.ceiling e decision).1

def recorded (s : Session π ρ) : Session (RecordedPolicy π) (RecordedResolver ρ) :=
  ⟨s.router, s.world.recorded⟩

structure Account where
  exempt : Bool
  established : Option Establishment
  /-- The policy was asked about a name and a port. -/
  queried : Bool
  /-- What the engine was asked. -/
  asked : List PolicyNote

def account (s : Session π ρ) (call : Call) : Account where
  exempt := s.exempts call
  established := (s.dialed? call).map s.establishment
  queried := (s.question? call).any fun q => q.1 ≠ "" ∧ q.2 ≠ 0
  asked := (s.recorded.after call).world.policy.notes

/-- The session after the question is settled. -/
def inquire (s : Session π ρ) : Option (String × UInt16) → Session π ρ
  | none => s
  | some (name, port) => (s.askName name port).2

/-- All that a call does to the counters, the cache and the engine. -/
structure Moved (s t : Session π ρ) (exempt : Bool) (question : Option (String × UInt16))
    (established : Option Establishment) : Prop where
  bypassed : t.router.bypassed = s.router.bypassed + exempt.toNat
  direct : t.router.direct = s.router.direct + (established == some .direct).toNat
  proxied : t.router.proxied = s.router.proxied + (established == some .proxied).toNat
  failed : t.router.failed = s.router.failed + (established == some .failed).toNat
  cache : t.router.cache = (s.inquire question).router.cache
  policy : t.world.policy = (s.inquire question).world.policy

omit [Resolver ρ] in
theorem moved_refl (s : Session π ρ) : s.Moved s false none none :=
  ⟨rfl, rfl, rfl, rfl, rfl, rfl⟩

omit [Resolver ρ] in
theorem moved_route (s : Session π ρ) (target : SocketAddr) :
    s.Moved (s.route target).2 (s.exempts (.route target)) (s.question? (.route target)) none := by
  cases hcovers : s.router.exemptions.coversEndpoint (.normalize target) with
  | true =>
      simp only [route, exempts, question?, endpoint?, hcovers, if_true]
      exact ⟨rfl, rfl, rfl, rfl, rfl, rfl⟩
  | false =>
      simp only [route, exempts, question?, endpoint?, hcovers, Bool.false_eq_true, if_false]
      exact ⟨rfl, rfl, rfl, rfl, rfl, rfl⟩

omit [PolicyEngine π] [Resolver ρ] in
theorem bindName_frame (s : Session π ρ) (name : String) :
    (s.bindName name).2.router.cache = s.router.cache ∧
      (s.bindName name).2.world.policy = s.world.policy := by
  refine ⟨rfl, ?_⟩
  simp only [bindName]
  split <;> rfl

omit [Resolver ρ] in
theorem moved_routeName (s : Session π ρ) (name : String) (port : UInt16) :
    s.Moved (s.routeName name port).2 (s.exempts (.routeName name port))
      (s.question? (.routeName name port)) none := by
  cases hip : NumericHost.read? name with
  | some ip =>
      have hroute := s.moved_route (SocketAddr.of ip port)
      simp only [routeName, exempts, question?, endpoint?, hip, Option.map_some] at hroute ⊢
      exact hroute
  | none =>
      cases hcovers : Exemptions.coversName s.world.localName name with
      | true =>
          simp only [routeName, exempts, question?, endpoint?, hip, hcovers, Option.map_none,
            if_true]
          exact ⟨rfl, rfl, rfl, rfl, rfl, rfl⟩
      | false =>
          simp only [routeName, exempts, question?, endpoint?, hip, hcovers, Option.map_none,
            Bool.false_eq_true, if_false]
          obtain ⟨hcache, hpolicy⟩ := (s.askName name port).2.bindName_frame name
          exact ⟨rfl, rfl, rfl, rfl, hcache, hpolicy⟩

omit [Resolver ρ] in
theorem moved_resolveName (s : Session π ρ) (name : String) (service : Option String)
    (intent : ResolveIntent) :
    s.Moved (s.resolveName name service intent).2 false none none := by
  simp only [resolveName]
  split
  · exact s.moved_refl
  · obtain ⟨hcache, hpolicy⟩ := s.bindName_frame name
    exact ⟨rfl, rfl, rfl, rfl, hcache, hpolicy⟩

omit [PolicyEngine π] in
theorem router_dialAs (s : Session π ρ) (e : Endpoint) (decision : Decision) :
    let outcome := (s.world.toDialer.establish s.router.table s.router.ceiling e decision).1
    let established := some (Establishment.of decision outcome)
    (s.dialAs e decision).2.router = { s.router with
      direct := s.router.direct + (established == some .direct).toNat
      proxied := s.router.proxied + (established == some .proxied).toNat
      failed := s.router.failed + (established == some .failed).toNat } := by
  simp only [dialAs]
  cases (s.world.toDialer.establish s.router.table s.router.ceiling e decision).1 with
  | error e => rfl
  | ok fd => cases decision <;> rfl

/-- An endpoint that is not exempt is asked about and then dialed, whatever was decided. -/
theorem moved_dial (s : Session π ρ) (target : SocketAddr) :
    s.Moved (s.dial target).2 (s.exempts (.dial target)) (s.question? (.dial target))
      ((s.dialed? (.dial target)).map s.establishment) := by
  cases hcovers : s.router.exemptions.coversEndpoint (.normalize target) with
  | true =>
      simp only [dial, route, exempts, question?, dialed?, endpoint?, hcovers, if_true]
      exact ⟨rfl, rfl, rfl, rfl, rfl, rfl⟩
  | false =>
      have hrouter := (s.askEndpoint (.normalize target)).2.router_dialAs (.normalize target)
        (s.askEndpoint (.normalize target)).1
      have hworld := ((s.askEndpoint (.normalize target)).2.dialAs_establishes (.normalize target)
        (s.askEndpoint (.normalize target)).1).2
      simp only [s.dial_eq_dialAs hcovers, exempts, question?, dialed?, endpoint?, hcovers,
        Bool.false_eq_true, if_false]
      exact {
        bypassed := congrArg (·.bypassed) hrouter
        direct := congrArg (·.direct) hrouter
        proxied := congrArg (·.proxied) hrouter
        failed := congrArg (·.failed) hrouter
        cache := congrArg (·.cache) hrouter
        policy := congrArg (·.policy) hworld }

/-- A dial answers as its account has it. -/
theorem dial_accounted (s : Session π ρ) (target : SocketAddr) :
    let established := (s.account (.dial target)).established
    ((s.dial target).1 = .ok none ↔ established = none) ∧
      ((∃ e, (s.dial target).1 = .error e) ↔ established = some .failed) := by
  cases hcovers : s.router.exemptions.coversEndpoint (.normalize target) with
  | true => simp [account, dial, route, exempts, dialed?, endpoint?, hcovers]
  | false =>
      obtain ⟨hanswer, -⟩ := (s.askEndpoint (.normalize target)).2.dialAs_establishes
        (.normalize target) (s.askEndpoint (.normalize target)).1
      simp only [s.dial_eq_dialAs hcovers, account, exempts, dialed?, endpoint?, hcovers,
        Bool.false_eq_true, if_false, Option.map_some, establishment, hanswer]
      cases ((s.askEndpoint (.normalize target)).2.world.toDialer.establish _ _ _ _).1 with
      | error e => simp [Establishment.of, Except.map]
      | ok fd =>
          cases (s.askEndpoint (.normalize target)).1 <;> simp [Establishment.of, Except.map]

omit [PolicyEngine π] [Resolver ρ] in
theorem swap_frame (s : Session π ρ) (fd replacement : Descriptor) :
    (s.swap fd replacement).2.router = s.router ∧
      (s.swap fd replacement).2.world.policy = s.world.policy := by
  simp only [swap]
  split <;> exact ⟨rfl, rfl⟩

/-- What a connect has counted and asked is what its dial has. -/
theorem connect_frame (s : Session π ρ) {fd : Descriptor} (h : s.world.network.isStream fd = true)
    (target : SocketAddr) :
    (s.connect fd target).2.router = (s.dial target).2.router ∧
      (s.connect fd target).2.world.policy = (s.dial target).2.world.policy := by
  simp only [connect, h, if_true]
  cases s.dial target with
  | mk outcome t =>
      cases outcome with
      | error e => exact ⟨rfl, rfl⟩
      | ok opened =>
          cases opened with
          | none => exact ⟨rfl, rfl⟩
          | some replacement => exact t.swap_frame fd replacement

theorem moved_connect (s : Session π ρ) (fd : Descriptor) (target : SocketAddr) :
    s.Moved (s.connect fd target).2 (s.exempts (.connect fd target))
      (s.question? (.connect fd target))
      ((s.dialed? (.connect fd target)).map s.establishment) := by
  cases hstream : s.world.network.isStream fd with
  | false =>
      simp only [connect, exempts, question?, dialed?, endpoint?, hstream, Bool.false_eq_true,
        if_false]
      exact s.moved_refl
  | true =>
      obtain ⟨hrouter, hpolicy⟩ := s.connect_frame hstream target
      have hdial := s.moved_dial target
      simp only [exempts, question?, dialed?, endpoint?, hstream, if_true] at hdial ⊢
      exact ⟨hrouter ▸ hdial.bypassed, hrouter ▸ hdial.direct, hrouter ▸ hdial.proxied,
        hrouter ▸ hdial.failed, hrouter ▸ hdial.cache, hpolicy ▸ hdial.policy⟩

theorem moved_after (s : Session π ρ) (call : Call) :
    s.Moved (s.after call) (s.exempts call) (s.question? call)
      ((s.dialed? call).map s.establishment) := by
  cases call with
  | route target => exact s.moved_route target
  | routeName name port => exact s.moved_routeName name port
  | resolveName name service intent => exact s.moved_resolveName name service intent
  | reverseName address => exact s.moved_refl
  | dial target => exact s.moved_dial target
  | connect fd target => exact s.moved_connect fd target

theorem after_bare (s : Session (RecordedPolicy π) (RecordedResolver ρ)) (call : Call) :
    s.bare.after call = (s.after call).bare := by
  cases call with
  | route target => exact congrArg Prod.snd (s.route_bare target)
  | routeName name port => exact congrArg Prod.snd (s.routeName_bare name port)
  | resolveName name service intent =>
      exact congrArg Prod.snd (s.resolveName_bare name service intent)
  | reverseName address => rfl
  | dial target => exact congrArg Prod.snd (s.dial_bare target)
  | connect fd target => exact congrArg Prod.snd (s.connect_bare fd target)

/-- The cache after a call, and what the engine was asked meanwhile. -/
theorem cache_after (s : Session π ρ) (call : Call) :
    let t := (s.after call).router.cache
    let asked := (s.account call).asked
    t.misses = s.router.cache.misses + asked.length ∧
      t.hits + t.misses =
        s.router.cache.hits + s.router.cache.misses + (s.account call).queried.toNat ∧
      t.failures = s.router.cache.failures + asked.countP (PolicyAnswer.unusable ·.answer) ∧
      t.size + t.failures ≤ s.router.cache.size + s.router.cache.failures + asked.length := by
  intro t asked
  have hrouter : s.after call = (s.recorded.after call).bare := s.recorded.after_bare call
  have hmoved := s.recorded.moved_after call
  have ht : t = (s.recorded.inquire (s.question? call)).router.cache :=
    (congrArg (·.router.cache) hrouter).trans hmoved.cache
  have hasked : asked = (s.recorded.inquire (s.question? call)).world.policy.notes :=
    congrArg RecordedPolicy.notes hmoved.policy
  have hqueried : (s.account call).queried =
    (s.question? call).any fun q => q.1 ≠ "" ∧ q.2 ≠ 0 := rfl
  rw [ht, hasked, hqueried]
  cases s.question? call with
  | none => exact ⟨rfl, rfl, rfl, Nat.le_refl _⟩
  | some q =>
      obtain ⟨more, hnotes, hrest⟩ := s.router.cache.query_counts s.recorded.world.policy
        s.world.journal s.world.now q.1 q.2
      have hmore : (s.recorded.inquire (some q)).world.policy.notes = more := hnotes
      rw [hmore]
      exact hrest

end Session

namespace Router

open Session

/-- The counters and the cache as the accounts of all calls say. -/
structure Balanced (r : Router) (accounts : List Account) : Prop where
  bypassed : r.bypassed = accounts.countP (·.exempt)
  direct : r.direct = accounts.countP (·.established == some .direct)
  proxied : r.proxied = accounts.countP (·.established == some .proxied)
  failed : r.failed = accounts.countP (·.established == some .failed)
  misses : r.cache.misses = (accounts.flatMap (·.asked)).length
  queries : r.cache.hits + r.cache.misses = accounts.countP (·.queried)
  failures : r.cache.failures =
    (accounts.flatMap (·.asked)).countP (PolicyAnswer.unusable ·.answer)
  size : r.cache.size + r.cache.failures ≤ r.cache.misses

theorem balanced_new (config : RouterConfig) : (new config).Balanced [] where
  bypassed := rfl
  direct := rfl
  proxied := rfl
  failed := rfl
  misses := rfl
  queries := rfl
  failures := rfl
  size := Nat.le_refl 0

variable [PolicyEngine π] [Resolver ρ]

/-- A call in a world of its own, be it the one the call before has left or another. -/
def serve (r : Router) (i : World π ρ × Call) : Account × Router :=
  let s : Session π ρ := ⟨r, i.1⟩
  (s.account i.2, (s.after i.2).router)

theorem Balanced.serve {r : Router} {accounts : List Account} (h : r.Balanced accounts)
    (i : World π ρ × Call) :
    (r.serve i).2.Balanced (accounts ++ [(r.serve i).1]) := by
  have hmoved := Session.moved_after ⟨r, i.1⟩ i.2
  obtain ⟨hmisses, hqueries, hfailures, hsize⟩ := Session.cache_after ⟨r, i.1⟩ i.2
  have hcount (p : Account → Bool) :
      (accounts ++ [(r.serve i).1]).countP p = accounts.countP p + (p (r.serve i).1).toNat := by
    rw [List.countP_append, List.countP_singleton]
    cases p (r.serve i).1 <;> rfl
  have hasked : (accounts ++ [(r.serve i).1]).flatMap (·.asked) =
      accounts.flatMap (·.asked) ++ (r.serve i).1.asked := by
    rw [List.flatMap_append, List.flatMap_singleton]
  exact {
    bypassed := by
      rw [hcount, ← h.bypassed]
      exact hmoved.bypassed
    direct := by
      rw [hcount, ← h.direct]
      exact hmoved.direct
    proxied := by
      rw [hcount, ← h.proxied]
      exact hmoved.proxied
    failed := by
      rw [hcount, ← h.failed]
      exact hmoved.failed
    misses := by
      rw [hasked, List.length_append, ← h.misses]
      exact hmisses
    queries := by
      rw [hcount, ← h.queries]
      exact hqueries
    failures := by
      rw [hasked, List.countP_append, ← h.failures]
      exact hfailures
    size :=
      calc (r.serve i).2.cache.size + (r.serve i).2.cache.failures
          ≤ r.cache.size + r.cache.failures + (r.serve i).1.asked.length := hsize
        _ ≤ r.cache.misses + (r.serve i).1.asked.length := Nat.add_le_add_right h.size _
        _ = (r.serve i).2.cache.misses := hmisses.symm }

/-- Every endpoint that was established ended in one of the three ways. -/
theorem countP_established (accounts : List Account) :
    accounts.countP (·.established == some .direct) +
        accounts.countP (·.established == some .proxied) +
        accounts.countP (·.established == some .failed) =
      accounts.countP (·.established.isSome) := by
  induction accounts with
  | nil => rfl
  | cons account accounts ih =>
      have hways := Establishment.one_way account.established
      simp only [List.countP_cons]
      omega

/-- Over any run of a new router, each counter is the number of the calls, or of the questions to
the engine, that it stands for. -/
theorem runAll_serve_balances (config : RouterConfig) (calls : List (World π ρ × Call)) :
    let run := runAll serve (new config) calls
    let accounts := run.1
    let asked := accounts.flatMap (·.asked)
    let k := run.2.counters
    k.bypassed = accounts.countP (·.exempt) ∧
      k.direct = accounts.countP (·.established == some .direct) ∧
      k.proxied = accounts.countP (·.established == some .proxied) ∧
      k.failed = accounts.countP (·.established == some .failed) ∧
      k.direct + k.proxied + k.failed = accounts.countP (·.established.isSome) ∧
      k.cacheMisses = asked.length ∧
      k.cacheHits + k.cacheMisses = accounts.countP (·.queried) ∧
      k.policyFailures = asked.countP (PolicyAnswer.unusable ·.answer) ∧
      run.2.cache.size + k.policyFailures ≤ k.cacheMisses := by
  intro run accounts asked k
  have h : run.2.Balanced accounts :=
    runAll_history (P := Balanced) (fun _ _ i h => h.serve i) (balanced_new config) calls
  have hestablished : k.direct + k.proxied + k.failed =
      accounts.countP (·.established.isSome) := by
    rw [← countP_established, ← h.direct, ← h.proxied, ← h.failed]
    rfl
  exact ⟨h.bypassed, h.direct, h.proxied, h.failed, hestablished, h.misses, h.queries, h.failures,
    h.size⟩

end Router

end Egress
