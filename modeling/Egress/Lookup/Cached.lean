import Egress.Lookup.Basic
import Egress.Text.Character
import Std.Data.HashMap

/-!
A resolver that remembers what a name service told it. An answer is kept for a fixed time, at least
a second, and for as long as it is among the 512 names answered last; failures and empty answers are
not kept.
-/

namespace Egress

/-- An answer kept: the addresses, and when it stops being valid. -/
structure KeptAnswer where
  addresses : List IpAddr
  expiresAt : Nat
deriving DecidableEq, Repr

structure CachedLookup (ν : Type) where
  service : ν
  lifetime : Nat
  entries : Std.HashMap String KeptAnswer := ∅
  /-- The names kept, in the order of their last answer. -/
  order : List String := []

namespace CachedLookup

variable {ν : Type}

def maxEntries : Nat := 512

def maxHostBytes : Nat := 255

def defaultLifetime : Nat := 60000

def new (service : ν) (lifetime : Nat) : CachedLookup ν :=
  { service, lifetime := max lifetime 1000 }

/-- A list without its repeated elements, each kept where it stands first. -/
def distinct (addresses : List IpAddr) : List IpAddr :=
  addresses.foldl (fun seen a => if a ∈ seen then seen else seen ++ [a]) []

/-- A kept answer that is still valid. One that is not is forgotten. -/
def remembered (c : CachedLookup ν) (now : Nat) (host : String) :
    Option (List IpAddr) × CachedLookup ν :=
  match c.entries[host]? with
  | none => (none, c)
  | some kept =>
      if now < kept.expiresAt then (some kept.addresses, c)
      else (none, { c with
        entries := c.entries.erase host
        order := c.order.filter (· != host) })

/-- Keeps an answer. Names answered longest ago make room for it. -/
def keep (c : CachedLookup ν) (now : Nat) (host : String) (addresses : List IpAddr) :
    CachedLookup ν :=
  let entries := c.entries.insert host ⟨addresses, now + c.lifetime⟩
  let order := c.order.filter (· != host) ++ [host]
  let surplus := order.length - maxEntries
  { c with
    entries := (order.take surplus).foldl (fun m name => m.erase name) entries
    order := order.drop surplus }

/-- Asks the service. Having no addresses is a failure too. -/
def fetch [NameService ν] (c : CachedLookup ν) (now : Nat) (host : String) :
    Except ResolveError (List IpAddr) × CachedLookup ν :=
  let (answer, service) := NameService.ask c.service now host
  let c := { c with service }
  match answer with
  | .error reason => (.error (.lookupFailed reason), c)
  | .ok addresses =>
      match distinct addresses with
      | [] => (.error (.lookupFailed "resolver returned no addresses"), c)
      | found => (.ok found, c)

def addresses [NameService ν] (c : CachedLookup ν) (now : Nat) (host : String) :
    Except ResolveError (List IpAddr) × CachedLookup ν :=
  match c.remembered now host with
  | (some found, c) => (.ok found, c)
  | (none, c) =>
      match c.fetch now host with
      | (.ok found, c) => (.ok found, c.keep now host found)
      | (.error error, c) => (.error error, c)

instance [NameService ν] : Resolver (CachedLookup ν) where
  resolve c now host port :=
    let host := Text.trim host
    if host.isEmpty ∨ maxHostBytes < host.utf8ByteSize then (.error .unsupported, c)
    else
      match IpAddr.read? host with
      | some ip => (.ok [SocketAddr.of ip port], c)
      | none =>
          match c.addresses now host with
          | (.ok found, c) => (.ok (found.map (SocketAddr.of · port)), c)
          | (.error error, c) => (.error error, c)

end CachedLookup

end Egress
