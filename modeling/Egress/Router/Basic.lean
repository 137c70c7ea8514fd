import Egress.Dial
import Egress.Exemption
import Egress.Text.Numeral

/-!
The router's own memory, the world it works in, and the records it keeps of what it did. A
`Session` is a router in a world; every operation takes one and gives the next.
-/

namespace Egress

structure RouterConfig where
  /-- The ceiling of every wait while dialing, in milliseconds. -/
  ceiling : Nat
  block : UInt8
  capacity : Nat
  exemptions : Exemptions
  application : String

namespace RouterConfig

def defaultCeiling : Nat := 10000

/-- The configuration of a process that says nothing but its name. -/
def standard (application : String) : RouterConfig where
  ceiling := defaultCeiling
  block := SyntheticTable.defaultBlock
  capacity := SyntheticTable.maxCapacity
  exemptions := .standard
  application

end RouterConfig

structure Router where
  table : SyntheticTable
  exemptions : Exemptions
  cache : DecisionCache
  ceiling : Nat
  bypassed : Nat := 0
  direct : Nat := 0
  proxied : Nat := 0
  failed : Nat := 0

structure Counters where
  bypassed : Nat := 0
  direct : Nat := 0
  proxied : Nat := 0
  failed : Nat := 0
  cacheHits : Nat := 0
  cacheMisses : Nat := 0
  policyFailures : Nat := 0
deriving DecidableEq, Repr

namespace Router

def new (config : RouterConfig) : Router where
  table := .new config.block config.capacity
  exemptions := config.exemptions
  cache := { application := config.application }
  ceiling := config.ceiling

/-- What a router was made with, in words. -/
def summary (r : Router) : String :=
  s!"app={r.cache.application}, prefix={r.table.block.toNat}, " ++
    s!"capacity={r.table.capacity}, timeout={Text.duration r.ceiling}"

def counters (r : Router) : Counters where
  bypassed := r.bypassed
  direct := r.direct
  proxied := r.proxied
  failed := r.failed
  cacheHits := r.cache.hits
  cacheMisses := r.cache.misses
  policyFailures := r.cache.failures

end Router

/-- Everything outside the router: what dialing works with, the machine's answer when it is asked
for its name, and the policy engine. -/
structure World (π ρ : Type) extends Dialer ρ where
  hostAnswer : Option (List UInt8)
  policy : π

namespace World

variable {π ρ : Type}

def localName (w : World π ρ) : Option String := hostName w.hostAnswer

def breadcrumb (w : World π ρ) (flags : Crumbs) (message : String) : World π ρ :=
  { w with journal := w.journal.breadcrumb flags message }

end World

structure Session (π ρ : Type) where
  router : Router
  world : World π ρ

namespace Session

variable {π ρ : Type}

def start (config : RouterConfig) (world : World π ρ) : Session π ρ :=
  let router := Router.new config
  { router, world := world.breadcrumb Crumbs.route s!"router ready ({router.summary})" }

/-- Binds a name and reports what it displaced. -/
def bindName (s : Session π ρ) (name : String) : Ipv4 × Session π ρ :=
  let binding := s.router.table.bind name
  let world := match binding.evicted with
    | none => s.world
    | some e =>
        s.world.breadcrumb Crumbs.dns s!"resolve table evicted {e.name} from slot {e.slot}"
  (binding.address, { router := { s.router with table := binding.table }, world })

def askName [PolicyEngine π] (s : Session π ρ) (name : String) (port : UInt16) :
    Decision × Session π ρ :=
  let answer := s.router.cache.query s.world.policy s.world.journal s.world.now name port
  (answer.decision, {
    router := { s.router with cache := answer.cache }
    world := { s.world with policy := answer.policy, journal := answer.journal } })

def askEndpoint [PolicyEngine π] (s : Session π ρ) (e : Endpoint) : Decision × Session π ρ :=
  s.askName (DecisionCache.nameFor s.router.table e) e.port

def countBypass (s : Session π ρ) : Session π ρ :=
  { s with router := { s.router with bypassed := s.router.bypassed + 1 } }

def countFailure (s : Session π ρ) : Session π ρ :=
  { s with router := { s.router with failed := s.router.failed + 1 } }

def countConnection (s : Session π ρ) : Decision → Session π ρ
  | .direct => { s with router := { s.router with direct := s.router.direct + 1 } }
  | .socks5 _ => { s with router := { s.router with proxied := s.router.proxied + 1 } }

end Session

end Egress
