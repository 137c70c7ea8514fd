import Egress.Embedding.Callback
import Egress.Embedding.Value
import Egress.Lookup.Cached
import Egress.Router.Operations

/-!
The functions an embedding program calls. They take whatever it hands them: without a router, or
with an argument that cannot be read, each has an answer that leaves the call to the program and
changes nothing.
-/

namespace Egress.Embedding

/-- Policy callbacks of type `κ`; resolve callbacks of type `l`, or a cached lookup over the name
service `ν` where there are none. -/
abbrev Policy (κ : Type) := CallbackPolicy κ

abbrev Names (l ν : Type) := CallbackResolver l ⊕ CachedLookup ν

/-- The embedded router, if it could be made, and the world around it. -/
structure Embedded (κ l ν : Type) where
  router : Option Router
  world : World (Policy κ) (Names l ν)

namespace Embedded

variable {κ l ν : Type}

def session? (e : Embedded κ l ν) : Option (Session (Policy κ) (Names l ν)) :=
  e.router.map fun router => { router, world := e.world }

def after (s : Session (Policy κ) (Names l ν)) : Embedded κ l ν :=
  { router := some s.router, world := s.world }

/-- A world whose resolver is a bare name service, with engine and resolver put in. -/
def furnish (world : World Unit ν) (policy : Hook κ) (resolver : Hook l) :
    World (Policy κ) (Names l ν) where
  now := world.now
  journal := world.journal
  network := world.network
  hostAnswer := world.hostAnswer
  policy := ⟨policy.callback?⟩
  resolver :=
    match resolver with
    | .installed callback => .inl ⟨some callback⟩
    | _ => .inr (.new world.resolver CachedLookup.defaultLifetime)

def log (e : Embedded κ l ν) (level : Level) (message : String) : Embedded κ l ν :=
  { e with world := { e.world with journal := e.world.journal.log level message } }

def breadcrumb (e : Embedded κ l ν) (message : String) : Embedded κ l ν :=
  { e with world := e.world.breadcrumb Crumbs.embedding message }

/-- Makes a router. It needs a policy callback; configuration and resolver have defaults. -/
def create (processName : String) (config : Option Config) (policy : Hook κ) (resolver : Hook l)
    (world : World Unit ν) : Embedded κ l ν :=
  let world := furnish world policy resolver
  match policy with
  | .null => log ⟨none, world⟩ .error "BridgeNewRouter: policy callbacks missing"
  | .empty => log ⟨none, world⟩ .error "BridgeNewRouter: policy evaluate callback missing"
  | .installed _ =>
      after (Session.start ((config.getD .standard).toRouterConfig processName) world)

inductive ConnectStatus
  | connected
  | passthrough
  | failed (errno : Nat)
deriving DecidableEq, Repr

def ConnectStatus.code : ConnectStatus → Int
  | connected => 0
  | passthrough => 1
  | failed _ => -1

def connect [PolicyCallback κ] [ResolveCallback l] [NameService ν] (e : Embedded κ l ν)
    (fd : Descriptor) (address : Option SocketAddr.Storage) (length : Nat) :
    ConnectStatus × Embedded κ l ν :=
  match e.session? with
  | none => (.passthrough, e)
  | some s =>
      match SocketAddr.decode? address length with
      | .error family =>
          let error := RouteError.invalidEndpoint family
          (.passthrough, e.breadcrumb s!"connect on fd {fd} passed through: {error.message}")
      | .ok target =>
          match s.connect fd target with
          | (.passthrough, s) => (.passthrough, after s)
          | (.connected, s) => (.connected, after s)
          | (.inProgress, s) => (.failed Errno.inProgress, after s)
          | (.failed error, s) =>
              (.failed Errno.timedOut,
                (after s).breadcrumb
                  s!"connect on fd {fd} to {target.text} failed: {error.message}")

def intent (number : Nat) : ResolveIntent :=
  match number with
  | 0 => .application
  | 1 => .numericHost
  | _ => .policy

/-- What is written to the place for an address. -/
def written (address : SocketAddr4) : SocketAddr.Storage :=
  .ofBytes (SocketAddr.encode (.v4 address))

/-- The synthetic address of a name, if there is a place to write it to and the name gets one. -/
def resolveName (e : Embedded κ l ν) (name service : CString) (intentNumber : Nat)
    (writable : Bool) : Option SocketAddr4 × Embedded κ l ν :=
  match e.session?, writable, name.text? with
  | some s, true, some name =>
      match s.resolveName name service.text? (intent intentNumber) with
      | (.passthrough, s) => (none, after s)
      | (.synthetic address, s) => (some address, after s)
  | _, _, _ => (none, e)

inductive RouteStatus
  | invalid
  | bypass
  | direct
  | proxy (address : SocketAddr4)
deriving DecidableEq, Repr

def RouteStatus.code : RouteStatus → Int
  | invalid => -1
  | bypass => 0
  | direct => 1
  | proxy _ => 2

def routeName [PolicyCallback κ] (e : Embedded κ l ν) (name : CString) (port : UInt16) :
    RouteStatus × Embedded κ l ν :=
  match e.session?, name.text? with
  | some s, some name =>
      match s.routeName name port with
      | (.bypass, s) => (.bypass, after s)
      | (.direct _, s) => (.direct, after s)
      | (.proxied _ proxy, s) => (.proxy proxy, after s)
  | _, _ => (.invalid, e)

inductive NameStatus
  | found
  | passthrough
  | overflow
deriving DecidableEq, Repr

def NameStatus.code : NameStatus → Int
  | found => 0
  | passthrough => 1
  | overflow => -1

/-- Writes the name of a synthetic address into a buffer. A missing buffer is too small. -/
def reverseName (e : Embedded κ l ν) (address : Ipv4) (buffer : Option (List UInt8)) :
    NameStatus × Option (List UInt8) :=
  match e.session?.bind (·.reverseName address) with
  | none => (.passthrough, buffer)
  | some name =>
      match buffer with
      | none => (.overflow, none)
      | some buffer =>
          let (fits, filled) := fillBuffer name buffer
          (if fits then .found else .overflow, some filled)

/-- As `reverseName`, for an address that is handed in as its number in memory. -/
def reverseNumber (e : Embedded κ l ν) (number : UInt32) (buffer : Option (List UInt8)) :
    NameStatus × Option (List UInt8) :=
  e.reverseName (SocketAddr.ofInetNumber number) buffer

def isSynthetic (e : Embedded κ l ν) (address : Ipv4) : Bool :=
  e.router.any (·.table.isSynthetic address)

def counters (e : Embedded κ l ν) (writable : Bool) : Option Counters :=
  if writable then e.router.map (·.counters) else none

end Embedded

end Egress.Embedding
