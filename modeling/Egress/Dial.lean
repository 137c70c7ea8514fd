import Egress.DecisionCache
import Egress.Lookup.Basic
import Egress.Network.Basic
import Egress.Socks

/-!
Dialing. A direct dial walks the addresses of its target in order until one of them connects; a
proxied dial connects to the proxy and asks it for the target. A target with a synthetic address is
dialed by the name bound to it, never by that address, and a lookup that answers with synthetic
addresses is not followed.
-/

namespace Egress

/-- What dialing works with besides the table: a resolver, the network, the journal and the time. -/
structure Dialer (ρ : Type) where
  now : Nat
  journal : Journal
  network : Network
  resolver : ρ

/-- An endpoint to dial, how, and the name bound to it if its address is synthetic. -/
structure DialContext where
  endpoint : Endpoint
  decision : Decision
  name : Option String
deriving DecidableEq

namespace DialContext

/-- The context of an endpoint. A synthetic address without a name is stale. -/
def of (table : SyntheticTable) (endpoint : Endpoint) (decision : Decision) :
    Except RouteError DialContext :=
  match endpoint.ip with
  | .v4 a =>
      if table.isSynthetic a then
        match table.nameOf? a with
        | some name => .ok ⟨endpoint, decision, some name⟩
        | none => .error (.staleSyntheticAddress a)
      else .ok ⟨endpoint, decision, none⟩
  | .v6 _ => .ok ⟨endpoint, decision, none⟩

def label (c : DialContext) : String :=
  match c.name with
  | some name => s!"{name}:{c.endpoint.port.toNat}"
  | none => c.endpoint.text

def target (c : DialContext) : Socks.Target :=
  match c.name with
  | some name => .domain name
  | none =>
      match c.endpoint.ip with
      | .v4 a => .ipv4 a
      | .v6 a => .ipv6 a

end DialContext

namespace Dialer

variable {ρ : Type}

def complain (d : Dialer ρ) (category : ErrorCategory) (message : String) : Dialer ρ :=
  { d with journal := d.journal.complain d.now category message }

def finish (d : Dialer ρ) (fd : Descriptor) (message : String) :
    Except RouteError Descriptor × Dialer ρ :=
  let handed := d.network.handOver fd
  (handed.1.mapError .ofOs, { d with
    journal := d.journal.log .info message
    network := handed.2 })

/-- Tries addresses in order until one connects. Without a connection the answer is the last error,
if there was an address at all. -/
def walk (ceiling : Nat) (label : String) (d : Dialer ρ) (last : Option RouteError) :
    List SocketAddr → Except (Option RouteError) Descriptor × Dialer ρ
  | [] => (.error last, d)
  | candidate :: others =>
      match d.network.dial ceiling candidate with
      | (.ok fd, network) => (.ok fd, { d with network })
      | (.error e, network) =>
          let journal := d.journal.breadcrumb Crumbs.dial
            s!"direct candidate {candidate.text} for {label} failed: {e.message}"
          walk ceiling label { d with journal, network } (some e) others

/-- Whether a looked-up address leads out of the synthetic block. -/
def isReal (table : SyntheticTable) (candidate : SocketAddr) : Bool :=
  match candidate.ip with
  | .v4 a => !table.isSynthetic a
  | .v6 _ => true

/-- The error for a target whose lookup gave nothing but synthetic addresses. -/
def onlySynthetic (endpoint : Endpoint) : RouteError :=
  match endpoint.ip with
  | .v4 a => .staleSyntheticAddress a
  | .v6 _ => .resolve (.lookupFailed "only synthetic candidates")

/-- The addresses to try: the endpoint itself, or what the lookup of its name gives. -/
def candidates [Resolver ρ] (d : Dialer ρ) (table : SyntheticTable) (c : DialContext) :
    Except RouteError (List SocketAddr) × Dialer ρ :=
  match c.name with
  | none => (.ok [c.endpoint.socketAddr], d)
  | some name =>
      let (answer, resolver) := Resolver.resolve d.resolver d.now name c.endpoint.port
      let d := { d with resolver }
      match answer with
      | .error e =>
          (.error (.resolve e),
            d.complain .directDial s!"direct connect failed: {c.label}...{e.message}")
      | .ok found =>
          let real := found.filter (isReal table)
          if real.isEmpty ∧ ¬found.isEmpty then
            (.error (onlySynthetic c.endpoint),
              d.complain .directDial
                s!"direct connect failed: {c.label}...only synthetic candidates")
          else (.ok real, d)

def directDial [Resolver ρ] (d : Dialer ρ) (table : SyntheticTable) (ceiling : Nat)
    (c : DialContext) : Except RouteError Descriptor × Dialer ρ :=
  match d.candidates table c with
  | (.error e, d) => (.error e, d)
  | (.ok found, d) =>
      match d.walk ceiling c.label none found with
      | (.ok fd, d) => d.finish fd s!"direct connect: {c.label}...ok"
      | (.error last, d) =>
          let e := last.getD (.resolve (.lookupFailed "no candidate addresses"))
          (.error e, d.complain .directDial s!"direct connect failed: {c.label}...{e.message}")

/-- Connects to a proxy and has it connect to the target. A target that cannot be asked for is
refused before anything is opened. -/
def tunnel (d : Dialer ρ) (ceiling : Nat) (c : DialContext) (proxy : SocketAddr4) :
    Except RouteError Descriptor × Dialer ρ :=
  match Socks.connectRequest c.target c.endpoint.port with
  | .error fault => (.error (.proxyProtocol fault), d)
  | .ok request =>
      match d.network.dial ceiling (.v4 proxy) with
      | (.error e, network) => (.error e, { d with network })
      | (.ok fd, network) =>
          let journal := d.journal.breadcrumb Crumbs.socks
            s!"connected to proxy {proxy.text}, negotiating for {c.target.text}"
          match network.onSocket fd (negotiate ceiling request) with
          | (.ok (), network) => (.ok fd, { d with journal, network })
          | (.error e, network) => (.error e, { d with journal, network := network.close fd })

def proxiedDial (d : Dialer ρ) (ceiling : Nat) (c : DialContext) (proxy : SocketAddr4) :
    Except RouteError Descriptor × Dialer ρ :=
  let summary := s!"{proxy.text}...{c.label}"
  match d.tunnel ceiling c proxy with
  | (.ok fd, d) => d.finish fd s!"proxied connect: {summary}...ok"
  | (.error e, d) =>
      (.error e, d.complain .proxiedDial s!"proxied connect failed: {summary}...{e.message}")

def establish [Resolver ρ] (d : Dialer ρ) (table : SyntheticTable) (ceiling : Nat)
    (endpoint : Endpoint) (decision : Decision) : Except RouteError Descriptor × Dialer ρ :=
  match DialContext.of table endpoint decision with
  | .error e => (.error e, d)
  | .ok c =>
      match decision with
      | .direct => d.directDial table ceiling c
      | .socks5 proxy => d.proxiedDial ceiling c proxy

end Dialer

end Egress
