import Egress.Lookup.Basic
import Egress.Policy.Basic
import Egress.SocketAddr.Raw
import Egress.Text.Utf8

/-!
Engines and resolvers made of callbacks. A policy callback fills a fixed answer; a resolve callback
fills up to eight address slots and returns how many, which is not taken on trust: negative numbers
are failures, larger ones count as eight, and slots that hold no address are skipped.
-/

namespace Egress.Embedding

def maxHostBytes : Nat := 64

def maxSlots : Nat := 8

/-- What a policy callback leaves in its answer, and whether it reported success. -/
structure PolicyReply where
  host : Vector UInt8 maxHostBytes
  port : UInt16
  noCache : Bool
  success : Bool

class PolicyCallback (κ : Type) where
  evaluate : κ → String → String → UInt16 → PolicyReply × κ

namespace PolicyReply

/-- The reply of a callback that writes these bytes as the host, as many of them as have room. -/
def ofBytes (host : List UInt8) (port : UInt16) (noCache success : Bool) : PolicyReply where
  host := Vector.ofFn fun i => host.getD i.val 0
  port
  noCache
  success

/-- The host up to its NUL, read leniently; an empty one is none. -/
def hostText (r : PolicyReply) : Option String :=
  match r.host.toList.takeWhile (· ≠ 0) with
  | [] => none
  | bytes => some (Text.ofBytesLossy bytes)

def answer (r : PolicyReply) : Except PolicyError PolicyAnswer :=
  if r.success then .ok { host := r.hostText, port := r.port, noCache := r.noCache }
  else .error (.failed "callback reported failure")

end PolicyReply

/-- A policy engine that asks a callback. Strings with a NUL cannot be handed to it. -/
structure CallbackPolicy (κ : Type) where
  callback : Option κ

instance {κ : Type} [PolicyCallback κ] : PolicyEngine (CallbackPolicy κ) where
  evaluate engine application name port :=
    match engine.callback with
    | none => (.error .missing, engine)
    | some callback =>
        if '\x00' ∈ application.toList then
          (.error (.failed "application contains NUL"), engine)
        else if '\x00' ∈ name.toList then (.error (.failed "name contains NUL"), engine)
        else
          let (reply, callback) := PolicyCallback.evaluate callback application name port
          (reply.answer, ⟨some callback⟩)

/-- What a resolve callback leaves in its slots, and the number it returned. -/
structure ResolveReply where
  written : Int
  slots : Vector SocketAddr.Storage maxSlots

class ResolveCallback (κ : Type) where
  resolve : κ → String → UInt16 → ResolveReply × κ

namespace ResolveReply

/-- The reply of a callback that writes these addresses, as many of them as have a slot. -/
def ofBytes (written : Int) (addresses : List (List UInt8)) : ResolveReply where
  written
  slots := Vector.ofFn fun i => .ofBytes (addresses.getD i.val [])

def slotAddress (port : UInt16) (slot : SocketAddr.Storage) : Option SocketAddr :=
  match SocketAddr.decode slot 128 with
  | .ok address => some (address.withPort port)
  | .error _ => none

def answer (r : ResolveReply) (port : UInt16) : Except ResolveError (List SocketAddr) :=
  if r.written < 0 then .error (.lookupFailed "resolve callback reported failure")
  else
    match (r.slots.toList.take r.written.toNat).filterMap (slotAddress port) with
    | [] => .error (.lookupFailed "no addresses")
    | found => .ok found

end ResolveReply

/-- A resolver that asks a callback. Hosts with a NUL cannot be handed to it. -/
structure CallbackResolver (κ : Type) where
  callback : Option κ

instance {κ : Type} [ResolveCallback κ] : Resolver (CallbackResolver κ) where
  resolve resolver _ host port :=
    match resolver.callback with
    | none => (.error (.lookupFailed "resolve callback missing"), resolver)
    | some callback =>
        if '\x00' ∈ host.toList then (.error .unsupported, resolver)
        else
          let (reply, callback) := ResolveCallback.resolve callback host port
          (reply.answer port, ⟨some callback⟩)

end Egress.Embedding
