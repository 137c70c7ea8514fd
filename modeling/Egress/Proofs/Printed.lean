import Egress.CommandLine.Program

/-!
A run of the command line program in its parts: it checks the route, prints it, and connects. A part
prints behind what was printed before, so the route stays the first line whatever comes of
connecting.
-/

namespace Egress.CommandLine

variable {ν : Type} {settings : Settings}

namespace Program

variable {α β : Type}

theorem bind_apply (p : Program ν α) (f : α → Program ν β) (r : Run ν) :
    (p >>= f) r =
      match p r with
      | (.ok a, t) => f a t
      | (.error message, t) => (.error message, t) := by
  change (ExceptT.bind p f) r = _
  simp only [ExceptT.bind, ExceptT.mk, bind, StateT.bind]
  cases p r with
  | mk answer t => cases answer <;> rfl

theorem act_apply (operation : Session RulePolicy (CachedLookup ν) →
    α × Session RulePolicy (CachedLookup ν)) (r : Run ν) : act operation r =
      (.ok (operation r.session).1, flush { r with session := (operation r.session).2 }) := rfl

theorem stop_bind (message : String) (f : α → Program ν β) :
    (stop message >>= f) = stop message := rfl

/-- The program prints behind what has been printed. -/
def Extends (p : Program ν α) : Prop := ∀ r, ∃ rest, (p r).2.output = r.output ++ rest

namespace Extends

theorem stop (message : String) : Extends (stop message : Program ν α) :=
  fun _ => ⟨"", String.append_empty.symm⟩

theorem act (operation : Session RulePolicy (CachedLookup ν) →
    α × Session RulePolicy (CachedLookup ν)) : Extends (act operation) :=
  fun _ => ⟨"", String.append_empty.symm⟩

theorem print (line : String) : Extends (print line : Program ν Unit) :=
  fun _ => ⟨line ++ "\n", String.append_assoc⟩

theorem bind {p : Program ν α} {f : α → Program ν β} (hp : Extends p) (hf : ∀ a, Extends (f a)) :
    Extends (p >>= f) := by
  intro r
  obtain ⟨first, hfirst⟩ := hp r
  rw [bind_apply]
  cases hrun : p r with
  | mk answer t =>
      rw [hrun] at hfirst
      cases answer with
      | error message => exact ⟨first, hfirst⟩
      | ok a =>
          obtain ⟨rest, hrest⟩ := hf a t
          exact ⟨first ++ rest, by rw [hrest, hfirst, String.append_assoc]⟩

end Extends

end Program

open Program

/-- Says which host is about to be routed. -/
def announce (settings : Settings) : Program ν Unit := do
  let application ← act fun s => (s.router.cache.application, s)
  printError s!"[standalone] routing {settings.host}:{settings.port.toNat} as '{application}'"

/-- The run when it has said which host is about to be routed. -/
def announced (settings : Settings) (r : Run ν) : Run ν :=
  let application := r.session.router.cache.application
  let line := s!"[standalone] routing {settings.host}:{settings.port.toNat} as '{application}'"
  { flush r with errors := (flush r).errors ++ line ++ "\n" }

theorem announce_apply (settings : Settings) (r : Run ν) :
    announce settings r = (.ok (), announced settings r) := rfl

def reportPeer (started : Nat) (peer : SocketAddr) : Program ν Unit := do
  let finished ← act fun s => (s.world.now, s)
  let elapsed := Text.duration (finished - started)
  print s!"connected in {elapsed} (local {peer.nearText}, peer {peer.text})"
  print (← act fun s => (s.router.counters.text, s))

theorem extends_reportPeer (started : Nat) (peer : SocketAddr) :
    (reportPeer started peer : Program ν Unit).Extends :=
  .bind (.act _) fun _ => .bind (.print _) fun _ => .bind (.act _) fun _ => .print _

variable [Text.Covering]

/-- The target of a run and its route, up to the line that prints it. -/
def checkRoute [NameService ν] (settings : Settings) : Program ν (SocketAddr × Route) := do
  announce settings
  let target ← resolveTarget settings.host settings.port
  let route ← act (·.route target)
  return (target, route)

/-- What a run does after it has printed the route. -/
def connectTo [NameService ν] (settings : Settings) (target : SocketAddr) : Program ν Unit := do
  let started ← act fun s => (s.world.now, s)
  match ← act (·.dial target) with
  | .ok (some fd) => act (fun s => ((peerOf s fd).getD target, s)) >>= reportPeer started
  | .ok none =>
      match ← act (connectPlain · settings.timeout target) with
      | .ok peer => reportPeer started peer
      | .error e => stop e.message
  | .error e => stop s!"connect to {settings.host}:{settings.port.toNat} failed: {e.message}"

theorem program_eq [NameService ν] (settings : Settings) : (program settings : Program ν Unit) =
    checkRoute settings >>= fun checked =>
      print (checked.2.text checked.1) >>= fun _ => connectTo settings checked.1 := by
  simp only [program, checkRoute, announce, connectTo, bind_assoc, pure_bind, stop_bind]
  rfl

variable [NameService ν]

theorem extends_connectTo (settings : Settings) (target : SocketAddr) :
    (connectTo settings target : Program ν Unit).Extends := by
  refine .bind (.act _) fun started => .bind (.act _) fun dialed => ?_
  rcases dialed with e | _ | fd
  · exact .stop _
  · refine .bind (.act _) fun connected => ?_
    cases connected with
    | ok peer => exact extends_reportPeer started peer
    | error e => exact .stop _
  · exact .bind (.act _) (extends_reportPeer started)

/-- A run before its first step. -/
def startRun (settings : Settings) (processName : String) (world : World Unit ν) : Run ν :=
  flush { session := startSession settings processName world }

/-- What is checked is the route of the target, in the session that resolving it leaves. -/
theorem checkRoute_of_resolved {r t : Run ν} {target : SocketAddr}
    (h : resolveTarget settings.host settings.port (announced settings r) = (.ok target, t)) :
    checkRoute settings r = (.ok (target, (t.session.route target).1),
      flush { t with session := (t.session.route target).2 }) := by
  simp only [checkRoute, bind_apply, announce_apply, h, act_apply]
  rfl

theorem checkRoute_of_unresolved {r t : Run ν} {message : String}
    (h : resolveTarget settings.host settings.port (announced settings r) = (.error message, t)) :
    checkRoute settings r = (.error message, t) := by
  simp only [checkRoute, bind_apply, announce_apply, h]

section Run

variable {arguments : List String} {processName : String} {world : World Unit ν}

theorem run_of_program (hparse : Settings.parse arguments = .ok settings)
    {answer : Except String Unit} {t : Run ν}
    (h : program settings (startRun settings processName world) = (answer, t)) :
    (run processName arguments world).output = t.output ∧
      ∀ message, answer = .error message → (run processName arguments world).code = 1 := by
  simp only [startRun] at h
  simp only [run, hparse, h]
  cases answer <;> simp

theorem run_of_checked (hparse : Settings.parse arguments = .ok settings) {target : SocketAddr}
    {route : Route} {u : Run ν}
    (h : checkRoute settings (startRun settings processName world) = (.ok (target, route), u))
    (houtput : u.output = "") :
    let connected := connectTo settings target { u with output := route.text target ++ "\n" }
    (run processName arguments world).output = connected.2.output ∧
      ∀ message, connected.1 = .error message → (run processName arguments world).code = 1 := by
  intro connected
  have hprint : print (route.text target) u =
      (.ok (), { u with output := route.text target ++ "\n" }) := by
    rw [print, houtput, String.empty_append]
  have hprogram : program settings (startRun settings processName world) = connected := by
    simp only [program_eq, bind_apply, h, hprint, connected]
  exact run_of_program hparse hprogram

/-- The route is the first line of what is printed. -/
theorem output_run_of_checked (hparse : Settings.parse arguments = .ok settings)
    {target : SocketAddr} {route : Route} {u : Run ν}
    (h : checkRoute settings (startRun settings processName world) = (.ok (target, route), u))
    (houtput : u.output = "") :
    ∃ rest, (run processName arguments world).output = route.text target ++ "\n" ++ rest := by
  obtain ⟨rest, hrest⟩ :=
    extends_connectTo settings target { u with output := route.text target ++ "\n" }
  exact ⟨rest, (run_of_checked hparse h houtput).1.trans hrest⟩

theorem run_of_unresolved (hparse : Settings.parse arguments = .ok settings) {message : String}
    {u : Run ν}
    (h : checkRoute settings (startRun settings processName world) = (.error message, u)) :
    (run processName arguments world).output = u.output ∧
      (run processName arguments world).code = 1 := by
  have hprogram : program settings (startRun settings processName world) = (.error message, u) := by
    simp only [program_eq, bind_apply, h]
  obtain ⟨houtput, hcode⟩ := run_of_program hparse hprogram
  exact ⟨houtput, hcode message rfl⟩

end Run

end Egress.CommandLine
