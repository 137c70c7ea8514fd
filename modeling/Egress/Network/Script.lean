import Egress.Errno

/-!
What a peer does, written down as a list of events. Calls on a connection consume the list from the
front, so every loop over such calls is bounded by its length. An event that does not fit a call
makes the call fail as an input/output error.
-/

namespace Egress

inductive Event
  | ok
  | eof
  | stall
  | data (bytes : List UInt8)
  | accept (count : Nat)
  | errno (code : Nat)
  | poll (code : Nat)
  | soError (code : Nat)
  | soFail (code : Nat)
deriving DecidableEq, Repr

abbrev Script := List Event

/-- How a single wait for readiness ends. -/
inductive Readiness
  /-- Ready, with the socket's pending error or 0. -/
  | ready (pending : Nat)
  /-- Ready, but the pending error cannot be read. -/
  | unreadable (code : Nat)
  | timedOut
  | failed (code : Nat)
deriving DecidableEq, Repr

inductive WaitFailure
  | timedOut
  | errno (code : Nat)
deriving DecidableEq, Repr

def Readiness.outcome : Readiness → Except WaitFailure Unit
  | ready pending => if pending = 0 then .ok () else .error (.errno pending)
  | unreadable code => .error (.errno code)
  | timedOut => .error .timedOut
  | failed code => .error (.errno code)

/-- System calls behind one wait: the wait itself, and reading the pending error once ready. -/
def Readiness.calls : Readiness → Nat
  | ready _ => 2
  | unreadable _ => 2
  | timedOut => 1
  | failed _ => 1

namespace Script

/-- One wait. `silent` is how it ends when the script is over; an event that is not about waiting
means ready and stays in place. -/
def poll (silent : Readiness) : Script → Readiness × Script
  | [] => (silent, [])
  | .poll code :: rest => (.failed code, rest)
  | .stall :: rest => (.timedOut, rest)
  | .soError code :: rest => (.ready code, rest)
  | .soFail code :: rest => (.unreadable code, rest)
  | script => (.ready 0, script)

/-- A wait that starts again when it is interrupted, with the number of calls it took. -/
def await (silent : Readiness) : Script → Except WaitFailure Unit × Script × Nat
  | .poll code :: rest =>
      if code = Errno.interrupted then
        let (outcome, rest, calls) := await silent rest
        (outcome, rest, calls + 1)
      else (.error (.errno code), rest, 1)
  | script =>
      let (readiness, rest) := poll silent script
      (readiness.outcome, rest, readiness.calls)

/-- An attempt to connect: success, or the error number. -/
def connect : Script → Except Nat Unit × Script
  | [] => (.ok (), [])
  | .ok :: rest => (.ok (), rest)
  | .errno code :: rest => (.error code, rest)
  | _ :: rest => (.error Errno.inputOutput, rest)

/-- An attempt to send so many bytes: how many were accepted, or the error number. -/
def send (length : Nat) : Script → Except Nat Nat × Script
  | [] => (.ok length, [])
  | .ok :: rest => (.ok length, rest)
  | .accept count :: rest => (.ok (min count length), rest)
  | .errno code :: rest => (.error code, rest)
  | _ :: rest => (.error Errno.inputOutput, rest)

/-- An attempt to receive up to so many bytes: the bytes, none at the end of the stream, or the
error number. What is not taken of a chunk stays in front. -/
def receive (length : Nat) : Script → Except Nat (List UInt8) × Script
  | [] => (.error Errno.wouldBlock, [])
  | .data bytes :: rest =>
      if bytes.length ≤ length then (.ok bytes, rest)
      else (.ok (bytes.take length), .data (bytes.drop length) :: rest)
  | .eof :: rest => (.ok [], .eof :: rest)
  | .errno code :: rest => (.error code, rest)
  | _ :: rest => (.error Errno.inputOutput, rest)

/-- The bytes at the front that can be received without waiting. -/
def unread : Script → List UInt8
  | .data bytes :: rest => bytes ++ unread rest
  | _ => []

theorem length_poll_le (silent : Readiness) (s : Script) : (poll silent s).2.length ≤ s.length := by
  unfold poll
  split <;> simp

/-- A wait never adds to a script. -/
theorem length_await_le (silent : Readiness) (s : Script) :
    (await silent s).2.1.length ≤ s.length := by
  fun_induction await silent s <;> simp_all
  · omega
  · have := length_poll_le silent
    grind

theorem length_send_le (length : Nat) (s : Script) : (send length s).2.length ≤ s.length := by
  unfold send
  split <;> simp

/-- A failed attempt to send uses up an event. -/
theorem length_send_lt {length : Nat} {s : Script} {code : Nat}
    (h : (send length s).1 = .error code) : (send length s).2.length < s.length := by
  unfold send at h ⊢
  split <;> simp_all

theorem length_receive_le (length : Nat) (s : Script) :
    (receive length s).2.length ≤ s.length := by
  unfold receive
  split <;> try simp
  split <;> simp

/-- After a wait for data a failed attempt to receive has used up an event: the wait does not
succeed at the end of the script. -/
theorem length_receive_lt {length : Nat} {s : Script} {code : Nat}
    (hready : (await .timedOut s).1 = .ok ())
    (hcode : (receive length (await .timedOut s).2.1).1 = .error code) :
    (receive length (await .timedOut s).2.1).2.length < s.length := by
  have hle := length_await_le .timedOut s
  have hne : s ≠ [] := by
    rintro rfl
    simp [await, poll, Readiness.outcome] at hready
  cases hrest : (await .timedOut s).2.1 with
  | nil =>
      have := List.length_pos_iff.2 hne
      simpa [hrest, receive] using this
  | cons e rest =>
      rw [hrest] at hcode hle
      cases e with
      | data bytes =>
          simp only [receive] at hcode
          split at hcode <;> contradiction
      | eof => contradiction
      | ok | stall | accept _ | errno _ | poll _ | soError _ | soFail _ => exact hle

end Script

end Egress
