import Egress.Router.Basic

/-!
What a router is asked to do: find the route of an address or a name, hand out a synthetic address
for a name and give the name back, open a connection, and put one under a caller's descriptor.
-/

namespace Egress

inductive Route
  | bypass
  | direct (endpoint : Endpoint)
  | proxied (endpoint : Endpoint) (proxy : SocketAddr4)
deriving DecidableEq

def Route.ofDecision (endpoint : Endpoint) : Decision → Route
  | .direct => direct endpoint
  | .socks5 proxy => proxied endpoint proxy

/-- Why a name is asked for. Only an application's question gets a synthetic address. -/
inductive ResolveIntent
  | application
  | numericHost
  | policy
deriving DecidableEq, Repr

inductive NameResolution
  | passthrough
  | synthetic (address : SocketAddr4)
deriving DecidableEq, Repr

inductive ConnectVerdict
  | passthrough
  | connected
  | inProgress
  | failed (error : RouteError)
deriving DecidableEq, Repr

namespace Session

variable {π ρ : Type}

def route [PolicyEngine π] (s : Session π ρ) (target : SocketAddr) : Route × Session π ρ :=
  let endpoint := Endpoint.normalize target
  if s.router.exemptions.coversEndpoint endpoint then (.bypass, s.countBypass)
  else
    let (decision, s) := s.askEndpoint endpoint
    (Route.ofDecision endpoint decision, s)

def routeName [PolicyEngine π] (s : Session π ρ) (name : String) (port : UInt16) :
    Route × Session π ρ :=
  match NumericHost.read? name with
  | some ip => s.route (SocketAddr.of ip port)
  | none =>
      if Exemptions.coversName s.world.localName name then (.bypass, s.countBypass)
      else
        let (decision, s) := s.askName name port
        let (address, s) := s.bindName name
        let endpoint := Endpoint.new (.v4 address) port
        let world := s.world.breadcrumb Crumbs.route
          s!"route {name}:{port.toNat} -> {decision.text}"
        (Route.ofDecision endpoint decision, { s with world })

/-- The port a service stands for: a decimal numeral, blanks around it aside, or else 0. -/
def servicePort (service : Option String) : UInt16 :=
  ((service.map Text.trim).bind Text.port?).getD 0

def resolveName (s : Session π ρ) (name : String) (service : Option String)
    (intent : ResolveIntent) : NameResolution × Session π ρ :=
  if intent ≠ .application ∨ Exemptions.coversName s.world.localName name then (.passthrough, s)
  else
    let (address, s) := s.bindName name
    let shown := service.getD ""
    let world := s.world.breadcrumb Crumbs.dns s!"resolve {name}:{shown} -> {address.text}"
    (.synthetic ⟨address, servicePort service⟩, { s with world })

def reverseName (s : Session π ρ) (address : Ipv4) : Option String :=
  s.router.table.nameOf? address

/-- Dials an endpoint as decided and counts how that ended. -/
def dialAs [Resolver ρ] (s : Session π ρ) (endpoint : Endpoint) (decision : Decision) :
    Except RouteError Descriptor × Session π ρ :=
  let (outcome, dialer) :=
    s.world.toDialer.establish s.router.table s.router.ceiling endpoint decision
  let s := { s with world := { s.world with toDialer := dialer } }
  match outcome with
  | .ok fd => (.ok fd, s.countConnection decision)
  | .error e => (.error e, s.countFailure)

/-- Opens a connection to a target, or none if the target is exempt. -/
def dial [PolicyEngine π] [Resolver ρ] (s : Session π ρ) (target : SocketAddr) :
    Except RouteError (Option Descriptor) × Session π ρ :=
  match s.route target with
  | (.bypass, s) => (.ok none, s)
  | (.direct endpoint, s) =>
      let (outcome, s) := s.dialAs endpoint .direct
      (outcome.map some, s)
  | (.proxied endpoint proxy, s) =>
      let (outcome, s) := s.dialAs endpoint (.socks5 proxy)
      (outcome.map some, s)

/-- Puts a new connection under a caller's descriptor. -/
def swap (s : Session π ρ) (fd replacement : Descriptor) : ConnectVerdict × Session π ρ :=
  match s.world.network.replace fd replacement with
  | (.ok nonblocking, network) =>
      (if nonblocking then .inProgress else .connected,
        { s with world := { s.world with network } })
  | (.error e, network) =>
      let journal := s.world.journal.complain s.world.now .descriptor
        s!"descriptor swap for fd {fd} failed: {e.message}"
      (.failed (.ofOs e), { s with world := { s.world with network, journal } })

/-- Connects a caller's descriptor. Descriptors that are no stream sockets and exempt targets are
left to the caller. -/
def connect [PolicyEngine π] [Resolver ρ] (s : Session π ρ) (fd : Descriptor)
    (target : SocketAddr) : ConnectVerdict × Session π ρ :=
  if s.world.network.isStream fd then
    match s.dial target with
    | (.ok none, s) => (.passthrough, s)
    | (.ok (some replacement), s) => s.swap fd replacement
    | (.error e, s) => (.failed e, s)
  else (.passthrough, s)

end Session

end Egress
