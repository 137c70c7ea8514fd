import Egress.RouteError
import Egress.SocketAddr.Basic

/-!
Name lookup. A resolver gives socket addresses for a host and a port; a name service gives plain
addresses and stands for the network's directory. Both may change their state, and their answers,
with every question and with time.
-/

namespace Egress

class Resolver (ρ : Type) where
  /-- Answers at a time in milliseconds, for a host and a port. -/
  resolve : ρ → Nat → String → UInt16 → Except ResolveError (List SocketAddr) × ρ

/-- Why a name service has no answer: its numbered condition. -/
structure LookupFailure where
  code : Int
deriving DecidableEq, Repr

namespace LookupFailure

def unknownName : LookupFailure := ⟨-2⟩

def reason (f : LookupFailure) : String :=
  match f.code with
  | -1 => "Bad value for ai_flags"
  | -2 => "Name or service not known"
  | -3 => "Temporary failure in name resolution"
  | -4 => "Non-recoverable failure in name resolution"
  | -5 => "No address associated with hostname"
  | -6 => "ai_family not supported"
  | -7 => "ai_socktype not supported"
  | -8 => "Servname not supported for ai_socktype"
  | -9 => "Address family for hostname not supported"
  | -10 => "Memory allocation failure"
  | -11 => "System error"
  | -12 => "Result too large for supplied buffer"
  | -100 => "Processing request in progress"
  | -101 => "Request canceled"
  | -102 => "Request not canceled"
  | -103 => "All requests done"
  | -104 => "Interrupted by a signal"
  | -105 => "Parameter string not correctly encoded"
  | _ => "Unknown error"

def message (f : LookupFailure) : String :=
  s!"failed to lookup address information: {f.reason}"

end LookupFailure

class NameService (ν : Type) where
  lookup : ν → Nat → String → Except LookupFailure (List IpAddr) × ν

/-- Asks a name service for a host. A host that holds a NUL cannot be asked for. -/
def NameService.ask {ν : Type} [NameService ν] (service : ν) (now : Nat) (host : String) :
    Except String (List IpAddr) × ν :=
  if '\x00' ∈ host.toList then (.error "file name contained an unexpected NUL byte", service)
  else
    match NameService.lookup service now host with
    | (.ok addresses, service) => (.ok addresses, service)
    | (.error failure, service) => (.error failure.message, service)

instance {α β : Type} [Resolver α] [Resolver β] : Resolver (α ⊕ β) where
  resolve resolver now host port :=
    match resolver with
    | .inl a =>
        let (answer, a) := Resolver.resolve a now host port
        (answer, .inl a)
    | .inr b =>
        let (answer, b) := Resolver.resolve b now host port
        (answer, .inr b)

end Egress
