import Egress.Proofs.Descriptors

/-!
Waits that are interrupted, and attempts to connect that outlive the call. An attempt ends the same
way whether the call that makes it says so or a wait for its outcome, however often that wait is
interrupted: with the error that its number stands for, connected, or timed out.
-/

namespace Egress

namespace RouteError

/-- What an error number of the system means to whoever wanted to connect. -/
inductive Means : Nat → RouteError → Prop
  | refused : Means 111 (.dialRefused (.system (.numbered 111)))
  | networkUnreachable : Means 101 (.dialUnreachable (.system (.numbered 101)))
  | hostUnreachable : Means 113 (.dialUnreachable (.system (.numbered 113)))
  | timedOut : Means 110 .dialTimeout
  | other {code : Nat} (h : code ∉ [111, 101, 113, 110]) : Means code (.io (.numbered code))

theorem Means.eq_ofErrno {code : Nat} {e : RouteError} (h : Means code e) : e = .ofErrno code := by
  cases h with
  | refused | networkUnreachable | hostUnreachable | timedOut => rfl
  | other h =>
      simp only [List.mem_cons, List.not_mem_nil, or_false, not_or] at h
      obtain ⟨h111, h101, h113, h110⟩ := h
      simp only [ofErrno, ofOs, Errno.connectionRefused, Errno.networkUnreachable,
        Errno.hostUnreachable, Errno.timedOut, h111, h101, h113, h110, or_self, if_false]

theorem exists_means (code : Nat) : ∃ e, Means code e := by
  by_cases h : code ∈ [111, 101, 113, 110]
  · simp only [List.mem_cons, List.not_mem_nil, or_false] at h
    rcases h with rfl | rfl | rfl | rfl
    · exact ⟨_, .refused⟩
    · exact ⟨_, .networkUnreachable⟩
    · exact ⟨_, .hostUnreachable⟩
    · exact ⟨_, .timedOut⟩
  · exact ⟨_, .other h⟩

theorem means_ofErrno (code : Nat) : Means code (.ofErrno code) := by
  obtain ⟨e, h⟩ := exists_means code
  exact h.eq_ofErrno ▸ h

end RouteError

namespace Event

/-- The event is about waiting. Any other means that the socket is ready, and is for the call that
follows. -/
def EndsWait : Event → Prop
  | .stall | .poll _ | .soError _ | .soFail _ => True
  | .ok | .eof | .data _ | .accept _ | .errno _ => False

/-- A wait ends with this error number: it fails, an error is pending, or the pending error cannot
be read. -/
inductive FailsWait : Event → Nat → Prop
  | poll {code : Nat} (h : code ≠ 4) : FailsWait (.poll code) code
  | pending {code : Nat} (h : code ≠ 0) : FailsWait (.soError code) code
  | unreadable (code : Nat) : FailsWait (.soFail code) code

end Event

namespace Script

/-- A wait that is interrupted so many times. -/
def interruptions (count : Nat) : Script := List.replicate count (.poll 4)

/-- Nothing about waiting comes next. -/
def Ready (s : Script) : Prop := ∀ e ∈ s.head?, ¬e.EndsWait

theorem await_interruptions (silent : Readiness) (count : Nat) (s : Script) :
    await silent (interruptions count ++ s) =
      ((await silent s).1, (await silent s).2.1, (await silent s).2.2 + count) := by
  induction count with
  | zero => rfl
  | succ count ih =>
      rw [interruptions, List.replicate_succ, List.cons_append, await, Errno.interrupted,
        if_pos rfl]
      rw [interruptions] at ih
      simp only [ih, Nat.add_assoc]

/-- An event that is not about waiting stays for the call. -/
theorem await_of_call {e : Event} (he : ¬e.EndsWait) (silent : Readiness) (rest : Script) :
    await silent (e :: rest) = (.ok (), e :: rest, 2) := by
  cases e with
  | ok | eof | data _ | accept _ | errno _ => rfl
  | stall | poll _ | soError _ | soFail _ => exact absurd trivial he

/-- Who waits to write is ready as long as nothing speaks against it. -/
theorem await_ready {s : Script} (h : s.Ready) : await (.ready 0) s = (.ok (), s, 2) := by
  cases s with
  | nil => rfl
  | cons e rest => exact await_of_call (h e rfl) (.ready 0) rest

theorem await_fails {e : Event} {code : Nat} (h : e.FailsWait code) (silent : Readiness)
    (rest : Script) : ∃ calls, await silent (e :: rest) = (.error (.errno code), rest, calls) := by
  cases h with
  | poll h => exact ⟨1, by rw [await, Errno.interrupted, if_neg h]⟩
  | pending h => exact ⟨2, by simp [await, poll, Readiness.outcome, Readiness.calls, h]⟩
  | unreadable => exact ⟨2, rfl⟩

/-- An attempt that fails with this number goes on: it is in progress, or the call was
interrupted. -/
def Deferral (code : Nat) : Prop := code = 115 ∨ code = 4

instance : DecidablePred Deferral := fun code => inferInstanceAs (Decidable (code = 115 ∨ code = 4))

theorem leavesConnecting_iff {code : Nat} :
    Errno.leavesConnecting code = true ↔ Deferral code := by
  rw [Errno.leavesConnecting, Bool.or_eq_true, beq_iff_eq, beq_iff_eq]
  rfl

/-- Connecting fails with this error number: in the call that makes the attempt, or in the wait for
its outcome. -/
inductive Refuses (code : Nat) : Script → Prop
  | atOnce (h : ¬Deferral code) (rest : Script) : Refuses code (.errno code :: rest)
  | later {deferral : Nat} {e : Event} (h : Deferral deferral) (count : Nat)
      (he : e.FailsWait code) (rest : Script) :
      Refuses code (.errno deferral :: (interruptions count ++ e :: rest))

/-- Connecting succeeds: in the call that makes the attempt, or in the wait for its outcome, which
finds no pending error. -/
inductive Admits : Script → Prop
  | silent : Admits []
  | atOnce (rest : Script) : Admits (.ok :: rest)
  | later {deferral : Nat} {rest : Script} (h : Deferral deferral) (count : Nat)
      (hready : rest.Ready) : Admits (.errno deferral :: (interruptions count ++ rest))
  | cleared {deferral : Nat} (h : Deferral deferral) (count : Nat) (rest : Script) :
      Admits (.errno deferral :: (interruptions count ++ .soError 0 :: rest))

/-- Nothing comes of the attempt to connect while it is waited for. -/
inductive Stalls : Script → Prop
  | later {deferral : Nat} (h : Deferral deferral) (count : Nat) (rest : Script) :
      Stalls (.errno deferral :: (interruptions count ++ .stall :: rest))

/-- How an attempt to connect ends, whoever makes it. -/
def attempt (s : Script) : Except RouteError Unit :=
  match s.connect with
  | (.ok (), _) => .ok ()
  | (.error code, rest) =>
      if Errno.leavesConnecting code then (await (.ready 0) rest).1.mapError Socket.ofWait
      else .error (.ofErrno code)

theorem attempt_deferred {deferral : Nat} (h : Deferral deferral) (count : Nat)
    (rest : Script) : attempt (.errno deferral :: (interruptions count ++ rest)) =
      (await (.ready 0) rest).1.mapError Socket.ofWait := by
  simp only [attempt, connect, if_pos (leavesConnecting_iff.2 h), await_interruptions]

theorem attempt_of_refuses {s : Script} {code : Nat} (h : s.Refuses code) :
    s.attempt = .error (.ofErrno code) := by
  cases h with
  | atOnce h rest => simp only [attempt, connect, if_neg (mt leavesConnecting_iff.1 h)]
  | later h count he rest =>
      obtain ⟨calls, hwait⟩ := await_fails he (.ready 0) rest
      rw [attempt_deferred h, hwait]
      rfl

theorem attempt_of_admits {s : Script} (h : s.Admits) : s.attempt = .ok () := by
  cases h with
  | silent => rfl
  | atOnce rest => rfl
  | later h count hready =>
      rw [attempt_deferred h, await_ready hready]
      rfl
  | cleared h count rest =>
      rw [attempt_deferred h]
      rfl

theorem attempt_of_stalls {s : Script} (h : s.Stalls) : s.attempt = .error .dialTimeout := by
  cases h with
  | later h count rest =>
      rw [attempt_deferred h]
      rfl

end Script

/-- What an attempt to connect to this address meets. Where nobody is it is refused at once. -/
def Peer.meeting (peers : List Peer) (target : SocketAddr) : Script :=
  match peers.find? (·.address == target) with
  | none => [.errno 111]
  | some peer => peer.connect

namespace Socket

theorem awaitWritable_of_connecting {s : Socket} {script : Script}
    (h : s.connecting = some script) (ceiling : Nat) :
    (s.awaitWritable ceiling).1 = (Script.await (.ready 0) script).1 := by
  simp only [awaitWritable, h]

theorem fst_connect_of_deferred {s : Socket} {peers : List Peer} {target : SocketAddr} {code : Nat}
    {script : Script} (houtcome : (s.tryConnect peers target).1 = .error code)
    (hcode : Errno.leavesConnecting code)
    (hunderWay : (s.tryConnect peers target).2.connecting = some script) (ceiling : Nat) :
    (s.connect peers ceiling target).1 =
      (Script.await (.ready 0) script).1.mapError ofWait := by
  have hwait := awaitWritable_of_connecting hunderWay ceiling
  have htry : s.tryConnect peers target = (.error code, (s.tryConnect peers target).2) :=
    Prod.ext houtcome rfl
  rw [connect, htry]
  simp only [if_pos hcode]
  split <;> rename_i hends <;> rw [← hwait, hends] <;> rfl

/-- Neither the socket's past nor the ceiling on waits counts. -/
theorem fst_connect (s : Socket) (peers : List Peer) (ceiling : Nat) (target : SocketAddr) :
    (s.connect peers ceiling target).1 = (Peer.meeting peers target).attempt := by
  rw [Peer.meeting]
  cases hpeer : peers.find? (·.address == target) with
  | none =>
      rw [connect, tryConnect, hpeer]
      rfl
  | some peer =>
      rw [Script.attempt]
      cases hcall : peer.connect.connect with
      | mk outcome rest =>
          cases outcome with
          | ok _ => simp only [connect, tryConnect, hpeer, hcall]
          | error code =>
              by_cases hcode : Errno.leavesConnecting code
              · simp only [if_pos hcode]
                refine fst_connect_of_deferred ?_ hcode ?_ ceiling
                · simp only [tryConnect, hpeer, hcall]
                · simp only [tryConnect, hpeer, hcall, if_pos hcode]
              · simp only [connect, tryConnect, hpeer, hcall, if_neg hcode]

/-- An attempt that fails with an error number gives the error this number stands for, whether the
call said so or, after any number of interruptions, the wait for the outcome. One that succeeds ends
connected to the peer, with nothing sent or received, and one that stalls is timed out. -/
theorem connect_deferred_alike (s : Socket) (peers : List Peer) (ceiling : Nat)
    (target : SocketAddr) :
    (∀ code, (Peer.meeting peers target).Refuses code →
      (s.connect peers ceiling target).1 = .error (.ofErrno code) ∧
        RouteError.Means code (.ofErrno code)) ∧
    ((Peer.meeting peers target).Admits →
      (s.connect peers ceiling target).1 = .ok () ∧
        s.Aimed (s.connect peers ceiling target).2 [target] ∧
        ∃ peer, peers.find? (·.address == target) = some peer ∧
          (s.connect peers ceiling target).2.At peer) ∧
    ((Peer.meeting peers target).Stalls →
      (s.connect peers ceiling target).1 = .error .dialTimeout) := by
  have hends := s.fst_connect peers ceiling target
  refine ⟨fun code h => ⟨?_, RouteError.means_ofErrno code⟩, fun h => ?_, fun h => ?_⟩
  · rw [hends, Script.attempt_of_refuses h]
  · have hok : (s.connect peers ceiling target).1 = .ok () := by
      rw [hends, Script.attempt_of_admits h]
    exact ⟨hok, s.aimed_connect peers ceiling target, at_of_connect (Prod.ext hok rfl)⟩
  · rw [hends, Script.attempt_of_stalls h]

/-- Two peers that cannot be reached. Of one the call itself says so, of the other the wait, after
two interruptions. -/
def unreachablePeers : List Peer := [
  { address := .v4 ⟨.of 10 0 0 1, 80⟩, connect := [.errno 113] },
  { address := .v4 ⟨.of 10 0 0 2, 80⟩
    connect := .errno 115 :: (Script.interruptions 2 ++ [.soError 113]) }]

theorem connect_deferred_alike_unreachable :
    (({} : Socket).connect unreachablePeers 10 (.v4 ⟨.of 10 0 0 1, 80⟩)).1 =
        .error (.dialUnreachable (.system (.numbered 113))) ∧
      (({} : Socket).connect unreachablePeers 10 (.v4 ⟨.of 10 0 0 2, 80⟩)).1 =
        .error (.dialUnreachable (.system (.numbered 113))) := by
  obtain ⟨hnow, -, -⟩ :=
    connect_deferred_alike {} unreachablePeers 10 (.v4 ⟨.of 10 0 0 1, 80⟩)
  obtain ⟨hlater, -, -⟩ :=
    connect_deferred_alike {} unreachablePeers 10 (.v4 ⟨.of 10 0 0 2, 80⟩)
  exact ⟨(hnow _ (.atOnce (by decide) [])).1,
    (hlater _ (.later (by decide) 2 (.pending (by decide)) [])).1⟩

end Socket

end Egress
