import Egress.CommandLine.Settings
import Egress.Lookup.Cached
import Egress.Router.Operations

/-!
The command line program: it routes one destination, connects to it, and reports what happened. The
journal goes to standard error as it is written.
-/

namespace Egress

/-- Connects a socket past the router. The error is the operating system's own text. -/
def Socket.connectPlain (s : Socket) (peers : List Peer) (ceiling : Nat) (target : SocketAddr) :
    Except OsError Unit × Socket :=
  match s.tryConnect peers target with
  | (.ok (), s) => (.ok (), s)
  | (.error code, s) =>
      if code = Errno.inProgress then
        match s.awaitWritable ceiling with
        | (.ok (), s) => (.ok (), s)
        | (.error .timedOut, s) => (.error (.described .timedOut "connection timed out"), s)
        | (.error (.errno code), s) => (.error (.numbered code), s)
      else (.error (.numbered code), s)

/-- The near end of a connection, an address set aside for documentation. -/
def SocketAddr.nearText : SocketAddr → String
  | .v4 _ => "192.0.2.1:40000"
  | .v6 _ => "[2001:db8::1]:40000"

def Counters.text (c : Counters) : String :=
  s!"counters: bypassed={c.bypassed} direct={c.direct} proxied={c.proxied} failed={c.failed} " ++
    s!"cache_hits={c.cacheHits} cache_misses={c.cacheMisses} policy_failures={c.policyFailures}"

def Route.text (target : SocketAddr) : Route → String
  | .bypass => s!"route: bypass ({target.text})"
  | .direct endpoint => s!"route: direct ({endpoint.text})"
  | .proxied endpoint proxy => s!"route: socks5 {proxy.text} ({endpoint.text})"

namespace CommandLine

/-- What a run leaves: its exit code and what it printed. -/
structure Report where
  code : Nat
  output : String
  errors : String
deriving DecidableEq, Repr

structure Run (ν : Type) where
  session : Session RulePolicy (CachedLookup ν)
  output : String := ""
  errors : String := ""

/-- A step of the program; its error is the text it ends with. -/
abbrev Program (ν : Type) (α : Type) := ExceptT String (StateM (Run ν)) α

namespace Program

variable {ν : Type}

def flush (r : Run ν) : Run ν :=
  let lines := r.session.world.journal.lines
  let text := lines.foldl (fun t line => t ++ s!"[bridge][{line.level.name}] {line.message}\n") ""
  let world := r.session.world
  { r with
    errors := r.errors ++ text
    session := { r.session with
      world := { world with journal := { world.journal with lines := #[] } } } }

def print (line : String) : Program ν Unit :=
  fun r => (.ok (), { r with output := r.output ++ line ++ "\n" })

def printError (line : String) : Program ν Unit :=
  fun r => (.ok (), { r with errors := r.errors ++ line ++ "\n" })

/-- Lets the router act, and prints what it wrote to the journal. -/
def act {α : Type} (operation : Session RulePolicy (CachedLookup ν) →
    α × Session RulePolicy (CachedLookup ν)) : Program ν α :=
  fun r =>
    let (answer, session) := operation r.session
    (.ok answer, flush { r with session })

def stop {α : Type} (message : String) : Program ν α := fun r => (.error message, r)

end Program

variable {ν : Type}

/-- Asks the name service itself, past the router. -/
def lookupPlain [NameService ν] (s : Session RulePolicy (CachedLookup ν)) (host : String) :
    Except String (List IpAddr) × Session RulePolicy (CachedLookup ν) :=
  let (answer, service) := NameService.ask s.world.resolver.service s.world.now host
  (answer, { s with world := { s.world with resolver := { s.world.resolver with service } } })

/-- Opens a connection past the router; none of it goes through the journal. -/
def connectPlain (s : Session RulePolicy (CachedLookup ν)) (ceiling : Nat) (target : SocketAddr) :
    Except OsError SocketAddr × Session RulePolicy (CachedLookup ν) :=
  let network := s.world.network
  match network.faults.socket with
  | some errno => (.error (.numbered errno), s)
  | none =>
      let (outcome, socket) := ({} : Socket).connectPlain network.peers ceiling target
      let network := (network.add socket).2
      (outcome.map fun _ => target, { s with world := { s.world with network } })

def peerOf (s : Session RulePolicy (CachedLookup ν)) (fd : Descriptor) : Option SocketAddr :=
  (s.world.network.socketAt? fd).bind (·.target)

open Program in
/-- The address to connect to: a number as it is, a synthetic address if the router gives one, and
otherwise the first one the name service has. -/
def resolveTarget [NameService ν] (host : String) (port : UInt16) : Program ν SocketAddr := do
  match NumericHost.read? host with
  | some ip => return SocketAddr.of ip port
  | none =>
      match ← act (·.resolveName host (some (toString port.toNat)) .application) with
      | .synthetic address => return .v4 address
      | .passthrough =>
          match ← act (lookupPlain · host) with
          | .error reason => stop reason
          | .ok [] => stop s!"no addresses for {host}"
          | .ok (ip :: _) => return SocketAddr.of ip port

open Program in
def program [Text.Covering] [NameService ν] (settings : Settings) : Program ν Unit := do
  let host := settings.host
  let port := settings.port.toNat
  let application ← act fun s => (s.router.cache.application, s)
  printError s!"[standalone] routing {host}:{port} as '{application}'"
  let target ← resolveTarget host settings.port
  print ((← act (·.route target)).text target)
  let started ← act fun s => (s.world.now, s)
  let peer ← match ← act (·.dial target) with
    | .ok (some fd) => act fun s => ((peerOf s fd).getD target, s)
    | .ok none =>
        match ← act (connectPlain · settings.timeout target) with
        | .ok peer => pure peer
        | .error e => stop e.message
    | .error e => stop s!"connect to {host}:{port} failed: {e.message}"
  let finished ← act fun s => (s.world.now, s)
  let elapsed := Text.duration (finished - started)
  print s!"connected in {elapsed} (local {peer.nearText}, peer {peer.text})"
  print (← act fun s => (s.router.counters.text, s))

/-- The sink of a run: everything if it is verbose, else lines up to `info`. -/
def sink (verbose : Bool) : Sink :=
  if verbose then { level := .debug, mask := 0xffffffff } else { level := .info, mask := 0 }

/-- The router of a run in a world whose resolver is a bare name service. -/
def startSession (settings : Settings) (processName : String) (world : World Unit ν) :
    Session RulePolicy (CachedLookup ν) :=
  Session.start (settings.routerConfig processName) {
    now := world.now
    journal := world.journal.install (some (sink settings.verbose))
    network := world.network
    hostAnswer := world.hostAnswer
    policy := settings.policy
    resolver := .new world.resolver CachedLookup.defaultLifetime }

def run [Text.Covering] [NameService ν] (processName : String) (arguments : List String)
    (world : World Unit ν) : Report :=
  match Settings.parse arguments with
  | .error e => ⟨1, "", s!"Error: {e.message}\n"⟩
  | .ok settings =>
      let start := Program.flush { session := startSession settings processName world }
      match program settings start with
      | (.ok (), r) => ⟨0, r.output, r.errors⟩
      | (.error message, r) => ⟨1, r.output, r.errors ++ s!"Error: {message}\n"⟩

end CommandLine

end Egress
