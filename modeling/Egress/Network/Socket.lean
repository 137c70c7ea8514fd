import Egress.Network.Script
import Egress.RouteError
import Egress.SocketAddr.Basic

/-!
Stream sockets, as whoever owns one sees it: connecting, sending all of some bytes, receiving
exactly so many. A socket in use does not block, so each of these waits for readiness where it has
to, starts again when it is interrupted, and gives up when a wait takes too long.

An attempt to connect may outlive the call that made it. Until a wait for writability succeeds it is
still under way, and every such wait is a wait for its outcome, whoever waits.
-/

namespace Egress

/-- A peer: what it does when a connection to its address is opened, written to and read from. -/
structure Peer where
  address : SocketAddr
  connect : Script := []
  send : Script := []
  receive : Script := []
deriving DecidableEq, Repr

inductive SocketKind
  | stream
  | datagram
deriving DecidableEq, Repr

structure Socket where
  kind : SocketKind := .stream
  nonblocking : Bool := false
  /-- The addresses it was to connect to, oldest first, whether that succeeded or not. -/
  targets : List SocketAddr := []
  /-- While an attempt to connect is under way, what is left of the peer's part in it. -/
  connecting : Option Script := none
  writing : Script := []
  reading : Script := []
  /-- The bytes the peer has accepted. -/
  sent : List UInt8 := []
  received : List UInt8 := []
  /-- The ceiling of the last wait, in milliseconds. -/
  waited : Option Nat := none
  calls : Nat := 0
deriving DecidableEq, Repr

namespace Socket

def target (s : Socket) : Option SocketAddr := s.targets.getLast?

def ofWait : WaitFailure → RouteError
  | .timedOut => .dialTimeout
  | .errno code => .ofErrno code

/-- A wait cannot be given a longer ceiling than this. -/
def maxWait : Nat := 2147483647

/-- An attempt to connect. It starts the peer's scripts afresh; without a peer it is refused, and
leaves the scripts as they were. -/
def tryConnect (s : Socket) (peers : List Peer) (target : SocketAddr) :
    Except Nat Unit × Socket :=
  let s := { s with targets := s.targets ++ [target], calls := s.calls + 1 }
  match peers.find? (·.address == target) with
  | none => (.error Errno.connectionRefused, s)
  | some peer =>
      let (outcome, rest) := peer.connect.connect
      let connecting :=
        match outcome with
        | .error code => if Errno.leavesConnecting code then some rest else none
        | .ok () => none
      (outcome, { s with connecting, writing := peer.send, reading := peer.receive })

/-- Waits until the socket can be written to. While it is connecting, success means that it is now
connected; a failed wait leaves the attempt under way. -/
def awaitWritable (s : Socket) (ceiling : Nat) : Except WaitFailure Unit × Socket :=
  match s.connecting with
  | none =>
      let wait := Script.await (.ready 0) s.writing
      (wait.1, { s with
        writing := wait.2.1, waited := some (min ceiling maxWait), calls := s.calls + wait.2.2 })
  | some script =>
      let wait := Script.await (.ready 0) script
      (wait.1, { s with
        connecting := if wait.1.isOk then none else some wait.2.1
        waited := some (min ceiling maxWait), calls := s.calls + wait.2.2 })

def awaitReadable (s : Socket) (ceiling : Nat) : Except WaitFailure Unit × Socket :=
  let wait := Script.await .timedOut s.reading
  (wait.1, { s with
    reading := wait.2.1, waited := some (min ceiling maxWait), calls := s.calls + wait.2.2 })

def trySend (s : Socket) (bytes : List UInt8) : Except Nat Nat × Socket :=
  let call := s.writing.send bytes.length
  (call.1, { s with
    writing := call.2
    sent := s.sent ++ bytes.take (call.1.toOption.getD 0)
    calls := s.calls + 1 })

def tryReceive (s : Socket) (length : Nat) : Except Nat (List UInt8) × Socket :=
  let call := s.reading.receive length
  (call.1, { s with
    reading := call.2
    received := s.received ++ call.1.toOption.getD []
    calls := s.calls + 1 })

/-- A wait for writability never adds to the script of writes. -/
theorem length_writing_le_of_awaitWritable {s t : Socket} {ceiling : Nat}
    {outcome : Except WaitFailure Unit} (h : s.awaitWritable ceiling = (outcome, t)) :
    t.writing.length ≤ s.writing.length := by
  unfold awaitWritable at h
  split at h
  · obtain ⟨-, rfl⟩ := Prod.mk.inj h
    exact Script.length_await_le (.ready 0) s.writing
  · obtain ⟨-, rfl⟩ := Prod.mk.inj h
    exact Nat.le_refl _

def connect (s : Socket) (peers : List Peer) (ceiling : Nat) (target : SocketAddr) :
    Except RouteError Unit × Socket :=
  match s.tryConnect peers target with
  | (.ok (), s) => (.ok (), s)
  | (.error code, s) =>
      if Errno.leavesConnecting code then
        match s.awaitWritable ceiling with
        | (.ok (), s) => (.ok (), s)
        | (.error e, s) => (.error (ofWait e), s)
      else (.error (.ofErrno code), s)

/-- Sends all of some bytes. Accepting none of them means that the peer has closed. -/
def sendAll (s : Socket) (ceiling : Nat) (bytes : List UInt8) : Except RouteError Unit × Socket :=
  match bytes with
  | [] => (.ok (), s)
  | b :: bs =>
      match _hs : s.trySend (b :: bs) with
      | (.ok 0, t) => (.error .peerClosed, t)
      | (.ok (count + 1), t) => t.sendAll ceiling (bs.drop count)
      | (.error code, t) =>
          if code = Errno.interrupted then t.sendAll ceiling (b :: bs)
          else if code = Errno.wouldBlock then
            match _ht : t.awaitWritable ceiling with
            | (.ok (), u) => u.sendAll ceiling (b :: bs)
            | (.error e, u) => (.error (ofWait e), u)
          else (.error (.ofErrno code), t)
termination_by s.writing.length + bytes.length
decreasing_by
  · obtain ⟨-, rfl⟩ := Prod.mk.inj _hs
    have := Script.length_send_le (b :: bs).length s.writing
    simp only [List.length_cons, List.length_drop] at *
    omega
  · obtain ⟨hcode, rfl⟩ := Prod.mk.inj _hs
    have := Script.length_send_lt hcode
    simp only at *
    omega
  · obtain ⟨hcode, rfl⟩ := Prod.mk.inj _hs
    have := length_writing_le_of_awaitWritable _ht
    have := Script.length_send_lt hcode
    simp only at *
    omega

/-- Receives exactly so many bytes. The end of the stream before that means that the peer has
closed. -/
def receiveExact (s : Socket) (ceiling length : Nat) : Except RouteError (List UInt8) × Socket :=
  if length = 0 then (.ok [], s)
  else
    match _hs : s.awaitReadable ceiling with
    | (.error e, t) => (.error (ofWait e), t)
    | (.ok (), t) =>
        match _ht : t.tryReceive length with
        | (.ok [], u) => (.error .peerClosed, u)
        | (.ok (b :: bs), u) =>
            match u.receiveExact ceiling (length - (b :: bs).length) with
            | (.ok more, v) => (.ok (b :: bs ++ more), v)
            | (.error e, v) => (.error e, v)
        | (.error code, u) =>
            if code = Errno.interrupted ∨ code = Errno.wouldBlock then
              u.receiveExact ceiling length
            else (.error (.ofErrno code), u)
termination_by s.reading.length + length
decreasing_by
  · obtain ⟨-, rfl⟩ := Prod.mk.inj _hs
    obtain ⟨-, rfl⟩ := Prod.mk.inj _ht
    have := Script.length_receive_le length (Script.await .timedOut s.reading).2.1
    have := Script.length_await_le .timedOut s.reading
    simp only [List.length_cons] at *
    omega
  · obtain ⟨hready, rfl⟩ := Prod.mk.inj _hs
    obtain ⟨hcode, rfl⟩ := Prod.mk.inj _ht
    have := Script.length_receive_lt hready hcode
    simp only at *
    omega

end Socket

end Egress
