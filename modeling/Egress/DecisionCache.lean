import Egress.Journal
import Egress.Policy.Basic
import Egress.SocketAddr.Basic
import Egress.SyntheticTable
import Egress.Text.Character

/-!
Decisions by destination. A destination that was decided once is not asked about again unless the
engine forbade keeping its answer, failed, or named a proxy that cannot be used; in the last two
cases the destination is reached directly this time. No decision is ever replaced.
-/

namespace Egress

structure DecisionCache where
  application : String
  entries : Std.HashMap String Decision := ∅
  hits : Nat := 0
  misses : Nat := 0
  failures : Nat := 0

namespace DecisionCache

/-- What an engine's answer means: a decision and whether to keep it, or why there is none. -/
inductive Reading
  | usable (decision : Decision) (keep : Bool)
  | unusable (host : String) (port : UInt16)
  | failed (error : PolicyError)
deriving DecidableEq, Repr

/-- A proxy's host has to be an IPv4 address, blanks around it aside, and its port not 0. -/
def read (answer : Except PolicyError PolicyAnswer) : Reading :=
  match answer with
  | .error e => .failed e
  | .ok answer =>
      match answer.host with
      | none => .usable .direct !answer.noCache
      | some host =>
          match Ipv4.read? (Text.trim host) with
          | some ip =>
              if answer.port = 0 then .unusable host answer.port
              else .usable (.socks5 ⟨ip, answer.port⟩) !answer.noCache
          | none => .unusable host answer.port

/-- The text a destination is filed under. -/
def key (name : String) (port : UInt16) : String := s!"{name}:{port.toNat}"

def size (c : DecisionCache) : Nat := c.entries.size

def isEmpty (c : DecisionCache) : Bool := c.size == 0

structure Outcome (π : Type) where
  decision : Decision
  cache : DecisionCache
  policy : π
  journal : Journal

def settle (c : DecisionCache) (journal : Journal) (now : Nat) (name : String) (port : UInt16) :
    Reading → Decision × DecisionCache × Journal
  | .usable decision keep =>
      let entries := if keep then c.entries.insert (key name port) decision else c.entries
      let journal := match decision with
        | .direct => journal
        | .socks5 proxy =>
            journal.breadcrumb Crumbs.policy s!"{name}:{port.toNat} -> socks5 {proxy.text}"
      (decision, { c with entries }, journal)
  | .unusable host proxyPort =>
      (.direct, { c with failures := c.failures + 1 }, journal.complain now .policy
        s!"policy answered unusable proxy {host}:{proxyPort.toNat} for {name}:{port.toNat}")
  | .failed error =>
      (.direct, { c with failures := c.failures + 1 }, journal.complain now .policy
        s!"policy query for {name}:{port.toNat} failed: {error.message}")

/-- The decision for a name and a port. Nothing is asked or counted without both. -/
def query {π : Type} [PolicyEngine π] (c : DecisionCache) (policy : π) (journal : Journal)
    (now : Nat) (name : String) (port : UInt16) : Outcome π :=
  if name.isEmpty ∨ port = 0 then ⟨.direct, c, policy, journal⟩
  else
    match c.entries[key name port]? with
    | some decision => ⟨decision, { c with hits := c.hits + 1 }, policy, journal⟩
    | none =>
        let (answer, policy) := PolicyEngine.evaluate policy c.application name port
        let (decision, cache, journal) :=
          { c with misses := c.misses + 1 }.settle journal now name port (read answer)
        ⟨decision, cache, policy, journal⟩

/-- The name an endpoint is asked about by: the one bound to a synthetic address, which is empty if
none is, and its text for any other address. -/
def nameFor (table : SyntheticTable) (e : Endpoint) : String :=
  match e.ip with
  | .v4 a => if table.isSynthetic a then (table.nameOf? a).getD "" else a.text
  | .v6 a => a.text

end DecisionCache

end Egress
