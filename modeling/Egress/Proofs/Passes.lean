import Egress.Proofs.Dialing
import Egress.Proofs.Sending

/-!
How long a conversation takes. The loops are written out pass by pass, and every pass that does not
return uses up an event of the peer's script or moves the transfer on, so each loop returns, and
with what the function of its name returns. The system calls are paid for out of an account that
holds so much for every event that is left: what a pass uses up and transfers pays for the calls it
makes, and so a whole conversation with a proxy makes no more of them than a linear function of the
events and the bytes.
-/

namespace Egress

/-- What a pass of a loop comes to: another pass from a new state, or an answer. -/
inductive Pass (σ α : Type)
  | again (s : σ)
  | returned (a : α)

namespace Pass

variable {σ α : Type}

/-- A loop that is given up after so many passes. -/
def within (body : σ → Pass σ α) : Nat → σ → Pass σ α
  | 0, s => .again s
  | n + 1, s =>
      match body s with
      | .again t => within body n t
      | .returned a => .returned a

/-- What comes of a pass if `f` says what comes of the passes after it. -/
def follow (f : σ → α) : Pass σ α → α
  | .again s => f s
  | .returned a => a

/-- The loop returns what `f` says, after no more than so many passes, and every pass but the last
gets somewhere. -/
structure Ends (body : σ → Pass σ α) (f : σ → α) (Progress : σ → σ → Prop) (passes : σ → Nat) :
    Prop where
  progress : ∀ s t, body s = .again t → Progress s t
  returns : ∀ s, within body (passes s) s = .returned (f s)

variable {body : σ → Pass σ α}

/-- A loop whose passes go down by a measure returns what the function returns that unrolls it. -/
theorem within_of_measure {f : σ → α} {measure : σ → Nat}
    (hunroll : ∀ s, f s = (body s).follow f)
    (hdown : ∀ s t, body s = .again t → measure t < measure s) {n : Nat} {s : σ}
    (hn : measure s < n) : within body n s = .returned (f s) := by
  induction n generalizing s with
  | zero => exact absurd hn (Nat.not_lt_zero _)
  | succ n ih =>
      rw [within, hunroll s]
      cases hpass : body s with
      | returned a => rfl
      | again t =>
          have hless := hdown s t hpass
          exact ih (by omega)

theorem Ends.of_measure {f : σ → α} {Progress : σ → σ → Prop} {measure : σ → Nat}
    (hunroll : ∀ s, f s = (body s).follow f)
    (hprogress : ∀ s t, body s = .again t → Progress s t)
    (hdown : ∀ s t, Progress s t → measure t < measure s) :
    Ends body f Progress (measure · + 1) where
  progress := hprogress
  returns _ := within_of_measure hunroll (fun s t h => hdown s t (hprogress s t h))
    (Nat.lt_succ_self _)

/-- What every pass pays for itself the loop pays for, but for what its last pass costs. -/
theorem within_pays (account : σ → Nat) (spent : α → Nat) {cost : Nat}
    (hagain : ∀ s t, body s = .again t → account t ≤ account s)
    (hreturned : ∀ s a, body s = .returned a → spent a ≤ account s + cost) {n : Nat} {s : σ} {a : α}
    (h : within body n s = .returned a) : spent a ≤ account s + cost := by
  induction n generalizing s with
  | zero => cases h
  | succ n ih =>
      rw [within] at h
      cases hpass : body s with
      | returned b =>
          rw [hpass] at h
          cases h
          exact hreturned s a hpass
      | again t =>
          rw [hpass] at h
          exact Nat.le_trans (ih h) (Nat.add_le_add_right (hagain s t hpass) cost)

end Pass

theorem Readiness.calls_le (r : Readiness) : r.calls ≤ 2 := by
  cases r with
  | ready _ | unreadable _ => exact Nat.le_refl 2
  | timedOut | failed _ => exact Nat.le_succ 1

theorem Readiness.ready_ne_interrupted : ready 0 ≠ failed Errno.interrupted := nofun

theorem Readiness.timedOut_ne_interrupted : timedOut ≠ failed Errno.interrupted := nofun

namespace Script

/-- A pass of a wait, over the script and the calls made so far: only an interruption has it go
round again. -/
def waitPass (silent : Readiness) (p : Script × Nat) :
    Pass (Script × Nat) (Except WaitFailure Unit × Script × Nat) :=
  let (readiness, rest) := p.1.poll silent
  if readiness = .failed Errno.interrupted then .again (rest, p.2 + readiness.calls)
  else .returned (readiness.outcome, rest, p.2 + readiness.calls)

/-- A wait after some calls. -/
def awaitFrom (silent : Readiness) (p : Script × Nat) : Except WaitFailure Unit × Script × Nat :=
  let wait := p.1.await silent
  (wait.1, wait.2.1, p.2 + wait.2.2)

theorem length_waitPass_lt {silent : Readiness} (hsilent : silent ≠ .failed Errno.interrupted)
    {p q : Script × Nat} (h : waitPass silent p = .again q) : q.1.length < p.1.length := by
  obtain ⟨script, calls⟩ := p
  simp only [waitPass] at h
  split at h
  · rename_i hinterrupted
    cases h
    match script with
    | .poll code :: rest => exact Nat.lt_succ_self _
    | [] => exact absurd hinterrupted hsilent
    | .stall :: _ | .soError _ :: _ | .soFail _ :: _ => cases hinterrupted
    | .ok :: _ | .eof :: _ | .data _ :: _ | .accept _ :: _ | .errno _ :: _ => cases hinterrupted
  · cases h

theorem awaitFrom_eq {silent : Readiness} (hsilent : silent ≠ .failed Errno.interrupted)
    (p : Script × Nat) : awaitFrom silent p = (waitPass silent p).follow (awaitFrom silent) := by
  obtain ⟨script, calls⟩ := p
  match script with
  | .poll code :: rest =>
      by_cases hcode : code = Errno.interrupted
      · simp only [awaitFrom, await, waitPass, poll, hcode, if_true, Readiness.calls, Pass.follow]
        rw [Nat.add_comm _ 1, Nat.add_assoc]
      · simp [awaitFrom, await, waitPass, poll, hcode, Readiness.calls, Readiness.outcome,
          Pass.follow]
  | [] => simp [awaitFrom, await, waitPass, poll, hsilent, Pass.follow]
  | .stall :: _ | .soError _ :: _ | .soFail _ :: _ => rfl
  | .ok :: _ | .eof :: _ | .data _ :: _ | .accept _ :: _ | .errno _ :: _ => rfl

/-- A wait uses up an event with each pass but the last. -/
theorem ends_wait {silent : Readiness} (hsilent : silent ≠ .failed Errno.interrupted) :
    Pass.Ends (waitPass silent) (awaitFrom silent) (fun p q => q.1.length < p.1.length)
      (·.1.length + 1) :=
  .of_measure (awaitFrom_eq hsilent) (fun _ _ => length_waitPass_lt hsilent) fun _ _ => id

theorem length_connect_le (script : Script) : script.connect.2.length ≤ script.length := by
  match script with
  | [] => exact Nat.le_refl 0
  | .ok :: rest | .errno _ :: rest => exact Nat.le_succ rest.length
  | .eof :: rest | .stall :: rest | .data _ :: rest | .accept _ :: rest | .poll _ :: rest
  | .soError _ :: rest | .soFail _ :: rest => exact Nat.le_succ rest.length

/-- A wait makes two calls, and one for each event that it uses up. -/
theorem calls_await_le (silent : Readiness) (hsilent : silent ≠ .failed Errno.interrupted)
    (script : Script) :
    (await silent script).2.2 + (await silent script).2.1.length ≤ script.length + 2 := by
  have hagain (p q : Script × Nat) (h : waitPass silent p = .again q) :
      q.2 + q.1.length ≤ p.2 + p.1.length := by
    have hless := length_waitPass_lt hsilent h
    simp only [waitPass] at h
    split at h
    · rename_i hinterrupted
      have hone : (p.1.poll silent).1.calls = 1 := by rw [hinterrupted]; rfl
      cases h
      simp only at hless ⊢
      omega
    · cases h
  have hreturned (p : Script × Nat) (a : Except WaitFailure Unit × Script × Nat)
      (h : waitPass silent p = .returned a) : a.2.2 + a.2.1.length ≤ p.2 + p.1.length + 2 := by
    simp only [waitPass] at h
    split at h
    · cases h
    · cases h
      have hcalls := (p.1.poll silent).1.calls_le
      have hlength := length_poll_le silent p.1
      simp only
      omega
  have hpaid := Pass.within_pays (fun p => p.2 + p.1.length) (fun a => a.2.2 + a.2.1.length)
    hagain hreturned ((ends_wait hsilent).returns (script, 0))
  simpa only [awaitFrom, Nat.zero_add] using hpaid

end Script

namespace Socket

/-- The events that are left to the peer. -/
def events (s : Socket) : Nat :=
  (s.connecting.getD []).length + s.writing.length + s.reading.length

/-- The calls that were made, and four for every event that is left. -/
def account (s : Socket) : Nat := s.calls + 4 * s.events

/-- `t` is `s` after a wait, which has paid for all of its calls but two. -/
structure Waited (s t : Socket) : Prop where
  events : t.events ≤ s.events
  calls : t.calls + t.events ≤ s.calls + s.events + 2

theorem Waited.account {s t : Socket} (h : s.Waited t) : t.account ≤ s.account + 2 := by
  have hevents := h.events
  have hcalls := h.calls
  simp only [Socket.account]
  omega

theorem waited_awaitReadable (s : Socket) (ceiling : Nat) :
    s.Waited (s.awaitReadable ceiling).2 := by
  have hlength := Script.length_await_le .timedOut s.reading
  have hcalls := Script.calls_await_le .timedOut Readiness.timedOut_ne_interrupted s.reading
  constructor
  · simp only [awaitReadable, events]
    omega
  · simp only [awaitReadable, events]
    omega

theorem waited_awaitWritable (s : Socket) (ceiling : Nat) :
    s.Waited (s.awaitWritable ceiling).2 := by
  cases hconnecting : s.connecting with
  | none =>
      have hlength := Script.length_await_le (.ready 0) s.writing
      have hcalls := Script.calls_await_le (.ready 0) Readiness.ready_ne_interrupted s.writing
      constructor
      · simp only [awaitWritable, hconnecting, events, Option.getD_none, List.length_nil]
        omega
      · simp only [awaitWritable, hconnecting, events, Option.getD_none, List.length_nil]
        omega
  | some script =>
      have hlength := Script.length_await_le (.ready 0) script
      have hcalls := Script.calls_await_le (.ready 0) Readiness.ready_ne_interrupted script
      -- What is left of the attempt is dropped once it has succeeded.
      have hleft : ((if (script.await (.ready 0)).1.isOk then none
          else some (script.await (.ready 0)).2.1).getD []).length ≤
          (script.await (.ready 0)).2.1.length := by
        split
        · exact Nat.zero_le _
        · exact Nat.le_refl _
      constructor
      · simp only [awaitWritable, hconnecting, events, Option.getD_some]
        omega
      · simp only [awaitWritable, hconnecting, events, Option.getD_some]
        omega

theorem account_trySend_of_ok {s t : Socket} {bytes : List UInt8} {count : Nat}
    (h : s.trySend bytes = (.ok count, t)) : t.account ≤ s.account + 1 := by
  obtain ⟨-, rfl⟩ := Prod.mk.inj h
  have hlength := Script.length_send_le bytes.length s.writing
  simp only [account, events]
  omega

/-- A failed attempt to send has used up an event, which pays for it and for a wait. -/
theorem account_trySend_of_error {s t : Socket} {bytes : List UInt8} {code : Nat}
    (h : s.trySend bytes = (.error code, t)) :
    t.events < s.events ∧ t.account + 3 ≤ s.account := by
  obtain ⟨hcode, rfl⟩ := Prod.mk.inj h
  have hlength := Script.length_send_lt hcode
  simp only [account, events]
  omega

/-- A pass of the loop that sends all of some bytes, over the bytes that are left. -/
def sendPass (ceiling : Nat) : Socket × List UInt8 →
    Pass (Socket × List UInt8) (Except RouteError Unit × Socket)
  | (s, []) => .returned (.ok (), s)
  | (s, b :: bs) =>
      match s.trySend (b :: bs) with
      | (.ok 0, t) => .returned (.error .peerClosed, t)
      | (.ok (count + 1), t) => .again (t, (b :: bs).drop (count + 1))
      | (.error code, t) =>
          if code = Errno.interrupted then .again (t, b :: bs)
          else if code = Errno.wouldBlock then
            match t.awaitWritable ceiling with
            | (.ok (), u) => .again (u, b :: bs)
            | (.error e, u) => .returned (.error (ofWait e), u)
          else .returned (.error (.ofErrno code), t)

/-- An event was used up and the bytes that are left are the same, or there are fewer of them. -/
def SendProgress (p q : Socket × List UInt8) : Prop :=
  (q.1.events < p.1.events ∧ q.2 = p.2) ∨
    (q.1.events ≤ p.1.events ∧ q.2 <:+ p.2 ∧ q.2.length < p.2.length)

theorem sendAll_eq_follow (ceiling : Nat) (p : Socket × List UInt8) :
    p.1.sendAll ceiling p.2 =
      (sendPass ceiling p).follow fun q => q.1.sendAll ceiling q.2 := by
  obtain ⟨s, bytes⟩ := p
  cases bytes with
  | nil =>
      simp only [sendAll, sendPass, Pass.follow]
  | cons b bs =>
      change s.sendAll ceiling (b :: bs) = _
      rw [sendAll_cons]
      cases htry : s.trySend (b :: bs) with
      | mk outcome t =>
          cases outcome with
          | ok count =>
              cases count with
              | zero | succ _ => simp only [sendPass, htry, Pass.follow, List.drop_succ_cons]
          | error code =>
              by_cases hinterrupted : code = Errno.interrupted
              · simp only [sendPass, htry, if_pos hinterrupted, Pass.follow]
              by_cases hblocked : code = Errno.wouldBlock
              · cases hwait : t.awaitWritable ceiling with
                | mk ready u =>
                    cases ready with
                    | ok _ | error _ =>
                        simp only [sendPass, htry, if_neg hinterrupted, if_pos hblocked, hwait,
                          Pass.follow]
              · simp only [sendPass, htry, if_neg hinterrupted, if_neg hblocked, Pass.follow]

/-- One pass makes progress, and what it uses up and sends pays for its calls. -/
theorem sendPass_again {ceiling : Nat} {p q : Socket × List UInt8}
    (h : sendPass ceiling p = .again q) :
    SendProgress p q ∧ q.1.account + 4 * q.2.length ≤ p.1.account + 4 * p.2.length := by
  obtain ⟨s, bytes⟩ := p
  cases bytes with
  | nil => cases h
  | cons b bs =>
      simp only [sendPass] at h
      split at h
      · cases h
      · rename_i count t htry
        cases h
        have hpaid := account_trySend_of_ok htry
        have hevents : t.events ≤ s.events := by
          obtain ⟨-, rfl⟩ := Prod.mk.inj htry
          have hlength := Script.length_send_le (b :: bs).length s.writing
          simp only [events]
          omega
        have hless : ((b :: bs).drop (count + 1)).length < (b :: bs).length := by
          simp only [List.length_drop, List.length_cons]
          omega
        refine ⟨.inr ⟨hevents, List.drop_suffix _ _, hless⟩, ?_⟩
        simp only at hpaid hless ⊢
        omega
      · rename_i code t htry
        obtain ⟨hused, hpaid⟩ := account_trySend_of_error htry
        split at h
        · cases h
          refine ⟨.inl ⟨hused, rfl⟩, ?_⟩
          simp only
          omega
        · split at h
          · split at h
            · rename_i u hwait
              cases h
              have hwaited := t.waited_awaitWritable ceiling
              rw [hwait] at hwaited
              have hlater : u.account ≤ t.account + 2 := hwaited.account
              refine ⟨.inl ⟨Nat.lt_of_le_of_lt hwaited.events hused, rfl⟩, ?_⟩
              simp only
              omega
            · cases h
          · cases h

theorem sendPass_returned {ceiling : Nat} {p : Socket × List UInt8}
    {a : Except RouteError Unit × Socket} (h : sendPass ceiling p = .returned a) :
    a.2.account ≤ p.1.account + 4 * p.2.length + 1 := by
  obtain ⟨s, bytes⟩ := p
  cases bytes with
  | nil =>
      cases h
      simp only
      omega
  | cons b bs =>
      simp only [sendPass] at h
      split at h
      · rename_i t htry
        cases h
        have hpaid := account_trySend_of_ok htry
        simp only
        omega
      · cases h
      · rename_i code t htry
        obtain ⟨-, hpaid⟩ := account_trySend_of_error htry
        split at h
        · cases h
        · split at h
          · split at h
            · cases h
            · rename_i e u hwait
              cases h
              have hwaited := t.waited_awaitWritable ceiling
              rw [hwait] at hwaited
              have hlater := hwaited.account
              simp only at hlater ⊢
              omega
          · cases h
            simp only
            omega

theorem ends_sendAll (ceiling : Nat) :
    Pass.Ends (sendPass ceiling) (fun p => p.1.sendAll ceiling p.2) SendProgress
      fun p => p.1.events + p.2.length + 1 := by
  refine .of_measure (sendAll_eq_follow ceiling) (fun p q h => (sendPass_again h).1) ?_
  rintro p q (⟨hused, hsame⟩ | ⟨hused, -, hless⟩)
  · rw [hsame]
    exact Nat.add_lt_add_right hused _
  · exact Nat.add_lt_add_of_le_of_lt hused hless

theorem account_sendAll_le (s : Socket) (ceiling : Nat) (bytes : List UInt8) :
    (s.sendAll ceiling bytes).2.account ≤ s.account + 4 * bytes.length + 1 :=
  Pass.within_pays (fun p => p.1.account + 4 * p.2.length) (fun a => a.2.account)
    (fun _ _ h => (sendPass_again h).2) (fun _ _ h => sendPass_returned h)
    ((ends_sendAll ceiling).returns (s, bytes))

/-- A pass of the loop that receives so many bytes, over those that are there and the number of
those that are missing. -/
def receivePass (ceiling : Nat) : Socket × List UInt8 × Nat →
    Pass (Socket × List UInt8 × Nat) (Except RouteError (List UInt8) × Socket)
  | (s, got, 0) => .returned (.ok got, s)
  | (s, got, missing + 1) =>
      match s.awaitReadable ceiling with
      | (.error e, t) => .returned (.error (ofWait e), t)
      | (.ok (), t) =>
          match t.tryReceive (missing + 1) with
          | (.ok [], u) => .returned (.error .peerClosed, u)
          | (.ok (b :: bs), u) => .again (u, got ++ b :: bs, missing + 1 - (b :: bs).length)
          | (.error code, u) =>
              if code = Errno.interrupted ∨ code = Errno.wouldBlock then
                .again (u, got, missing + 1)
              else .returned (.error (.ofErrno code), u)

/-- Receiving the bytes that are missing behind those that are there. -/
def receiveOn (ceiling : Nat) (p : Socket × List UInt8 × Nat) :
    Except RouteError (List UInt8) × Socket :=
  match p.1.receiveExact ceiling p.2.2 with
  | (.ok more, t) => (.ok (p.2.1 ++ more), t)
  | (.error e, t) => (.error e, t)

/-- An event was used up and the same bytes are missing, or fewer are. -/
def ReceiveProgress (p q : Socket × List UInt8 × Nat) : Prop :=
  (q.1.events < p.1.events ∧ q.2 = p.2) ∨
    (q.1.events ≤ p.1.events ∧ p.2.1 <+: q.2.1 ∧ q.2.2 < p.2.2)

theorem receiveOn_eq_follow (ceiling : Nat) (p : Socket × List UInt8 × Nat) :
    receiveOn ceiling p = (receivePass ceiling p).follow (receiveOn ceiling) := by
  obtain ⟨s, got, missing⟩ := p
  rw [receiveOn, receiveExact_eq]
  cases missing with
  | zero => simp only [if_true, receivePass, Pass.follow, List.append_nil]
  | succ missing =>
      rw [if_neg (Nat.succ_ne_zero missing)]
      cases hwait : s.awaitReadable ceiling with
      | mk ready t =>
          cases ready with
          | error e => simp only [receivePass, hwait, Pass.follow]
          | ok _ =>
              cases htry : t.tryReceive (missing + 1) with
              | mk outcome u =>
                  cases outcome with
                  | error code =>
                      by_cases hretry : code = Errno.interrupted ∨ code = Errno.wouldBlock
                      · simp only [receivePass, hwait, htry, if_pos hretry, Pass.follow, receiveOn]
                      · simp only [receivePass, hwait, htry, if_neg hretry, Pass.follow]
                  | ok bytes =>
                      cases bytes with
                      | nil => simp only [receivePass, hwait, htry, Pass.follow]
                      | cons b bs =>
                          simp only [receivePass, hwait, htry, Pass.follow, receiveOn]
                          cases u.receiveExact ceiling (missing + 1 - (b :: bs).length) with
                          | mk answer v =>
                              cases answer with
                              | ok more => simp only [List.append_assoc]
                              | error e => rfl

/-- A call to receive that follows a wait: the wait has paid for its calls but two, and a failed
attempt has used up an event. -/
theorem events_tryReceive {s t u : Socket} {ceiling length : Nat}
    {outcome : Except Nat (List UInt8)} (hwait : s.awaitReadable ceiling = (.ok (), t))
    (htry : t.tryReceive length = (outcome, u)) :
    u.calls = t.calls + 1 ∧ u.events ≤ t.events ∧
      ∀ code, outcome = .error code → u.events < s.events := by
  obtain ⟨hready, rfl⟩ := Prod.mk.inj hwait
  obtain ⟨houtcome, rfl⟩ := Prod.mk.inj htry
  have hlength := Script.length_receive_le length (Script.await .timedOut s.reading).2.1
  refine ⟨rfl, ?_, fun code hcode => ?_⟩
  · simp only [events]
    omega
  · have hless := Script.length_receive_lt hready (houtcome.trans hcode)
    simp only [events]
    omega

theorem receivePass_again {ceiling : Nat} {p q : Socket × List UInt8 × Nat}
    (h : receivePass ceiling p = .again q) :
    ReceiveProgress p q ∧ q.1.account + 4 * q.2.2 ≤ p.1.account + 4 * p.2.2 := by
  obtain ⟨s, got, missing⟩ := p
  cases missing with
  | zero => cases h
  | succ missing =>
      simp only [receivePass] at h
      split at h
      · cases h
      · rename_i t hwait
        have hwaited := s.waited_awaitReadable ceiling
        rw [hwait] at hwaited
        have hevents := hwaited.events
        have hcalls := hwaited.calls
        split at h
        · cases h
        · rename_i b bs u htry
          cases h
          obtain ⟨hcall, hused, -⟩ := events_tryReceive hwait htry
          have hless : missing + 1 - (b :: bs).length < missing + 1 := by
            rw [List.length_cons]
            omega
          refine ⟨.inr ⟨Nat.le_trans hused hevents, List.prefix_append _ _, hless⟩, ?_⟩
          simp only [account] at hcall hused hevents hcalls hless ⊢
          omega
        · rename_i code u htry
          obtain ⟨hcall, hused, hfailed⟩ := events_tryReceive hwait htry
          have hless := hfailed code rfl
          split at h
          · cases h
            refine ⟨.inl ⟨hless, rfl⟩, ?_⟩
            simp only [account] at hcall hused hevents hcalls hless ⊢
            omega
          · cases h

theorem receivePass_returned {ceiling : Nat} {p : Socket × List UInt8 × Nat}
    {a : Except RouteError (List UInt8) × Socket} (h : receivePass ceiling p = .returned a) :
    a.2.account ≤ p.1.account + 4 * p.2.2 + 3 := by
  obtain ⟨s, got, missing⟩ := p
  cases missing with
  | zero =>
      cases h
      simp only
      omega
  | succ missing =>
      simp only [receivePass] at h
      have hwaited := (s.waited_awaitReadable ceiling).account
      split at h
      · rename_i e t hwait
        cases h
        rw [hwait] at hwaited
        simp only at hwaited ⊢
        omega
      · rename_i t hwait
        rw [hwait] at hwaited
        have hpaid {outcome : Except Nat (List UInt8)} {u : Socket}
            (htry : t.tryReceive (missing + 1) = (outcome, u)) :
            u.account ≤ s.account + 4 * (missing + 1) + 3 := by
          obtain ⟨hcall, hused, -⟩ := events_tryReceive hwait htry
          simp only [account] at hcall hused hwaited ⊢
          omega
        split at h
        · rename_i u htry
          cases h
          exact hpaid htry
        · cases h
        · rename_i code u htry
          split at h
          · cases h
          · cases h
            exact hpaid htry

theorem ends_receiveExact (ceiling : Nat) :
    Pass.Ends (receivePass ceiling) (receiveOn ceiling) ReceiveProgress
      fun p => p.1.events + p.2.2 + 1 := by
  refine .of_measure (receiveOn_eq_follow ceiling) (fun p q h => (receivePass_again h).1) ?_
  rintro p q (⟨hused, hsame⟩ | ⟨hused, -, hless⟩)
  · rw [hsame]
    exact Nat.add_lt_add_right hused _
  · exact Nat.add_lt_add_of_le_of_lt hused hless

theorem account_receiveExact_le (s : Socket) (ceiling length : Nat) :
    (s.receiveExact ceiling length).2.account ≤ s.account + 4 * length + 3 := by
  have hpaid := Pass.within_pays (fun p => p.1.account + 4 * p.2.2) (fun a => a.2.account)
    (fun _ _ h => (receivePass_again h).2) (fun _ _ h => receivePass_returned h)
    ((ends_receiveExact ceiling).returns (s, [], length))
  simp only [receiveOn] at hpaid
  split at hpaid <;> rename_i hrun <;> rw [hrun] <;> exact hpaid

end Socket

namespace Peer

def events (p : Peer) : Nat := p.connect.length + p.send.length + p.receive.length

/-- The events of the peer at an address, none where nobody is. -/
def eventsAt (peers : List Peer) (target : SocketAddr) : Nat :=
  ((peers.find? (·.address == target)).map events).getD 0

end Peer

namespace Socket

theorem account_tryConnect_le (s : Socket) (peers : List Peer) (target : SocketAddr) :
    (s.tryConnect peers target).2.account ≤ s.account + 4 * Peer.eventsAt peers target + 1 := by
  simp only [tryConnect, Peer.eventsAt]
  cases peers.find? (·.address == target) with
  | none =>
      simp only [account, events]
      omega
  | some peer =>
      have hlength := peer.connect.length_connect_le
      simp only [account, events, Option.map_some, Option.getD_some, Peer.events]
      cases hcall : peer.connect.connect with
      | mk outcome rest =>
          rw [hcall] at hlength
          simp only at hlength
          cases outcome with
          | ok _ =>
              simp only [Option.getD_none, List.length_nil]
              omega
          | error code =>
              simp only
              split
              · simp only [Option.getD_some]
                omega
              · simp only [Option.getD_none, List.length_nil]
                omega

theorem account_connect_le (s : Socket) (peers : List Peer) (ceiling : Nat) (target : SocketAddr) :
    (s.connect peers ceiling target).2.account ≤
      s.account + 4 * Peer.eventsAt peers target + 3 := by
  have htried := s.account_tryConnect_le peers target
  unfold connect
  split
  · rename_i hcall
    rw [hcall] at htried
    exact Nat.le_trans htried (by omega)
  · rename_i code t hcall
    rw [hcall] at htried
    have hwaited := (t.waited_awaitWritable ceiling).account
    split
    · split <;> rename_i hwait <;> rw [hwait] at hwaited <;> simp only at htried hwaited ⊢ <;> omega
    · exact Nat.le_trans htried (by omega)

theorem calls_connect_le (s : Socket) (peers : List Peer) (ceiling : Nat) (target : SocketAddr) :
    (s.connect peers ceiling target).2.calls ≤
      s.calls + (Peer.meeting peers target).length + 3 := by
  simp only [connect, tryConnect, Peer.meeting]
  cases peers.find? (·.address == target) with
  | none =>
      have hfails : Errno.leavesConnecting Errno.connectionRefused = false := rfl
      simp only [hfails, Bool.false_eq_true, if_false]
      omega
  | some peer =>
      have hlength := peer.connect.length_connect_le
      simp only
      cases hcall : peer.connect.connect with
      | mk outcome rest =>
          rw [hcall] at hlength
          cases outcome with
          | ok _ =>
              simp only
              omega
          | error code =>
              have hwait := Script.calls_await_le (.ready 0) Readiness.ready_ne_interrupted rest
              simp only at hlength ⊢
              split
              · split <;> rename_i hends <;> obtain ⟨-, rfl⟩ := Prod.mk.inj hends <;> simp only <;>
                  omega
              · simp only
                omega

end Socket

namespace Conversation

variable {α β : Type}

/-- However the conversation goes, it adds no more than so much to the account. -/
def Costs (c : Conversation α) (n : Nat) : Prop := ∀ s, (c s).2.account ≤ s.account + n

theorem costs_pure (a : α) (n : Nat) : (pure a : Conversation α).Costs n :=
  fun s => Nat.le_add_right s.account n

theorem costs_send (ceiling : Nat) (bytes : List UInt8) :
    (send ceiling bytes).Costs (4 * bytes.length + 1) :=
  fun s => s.account_sendAll_le ceiling bytes

theorem costs_receive (ceiling length : Nat) : (receive ceiling length).Costs (4 * length + 3) :=
  fun s => s.account_receiveExact_le ceiling length

theorem Costs.bind {c : Conversation α} {f : α → Conversation β} {m n : Nat} (hc : c.Costs m)
    (hf : ∀ a, (f a).Costs n) : (c >>= f).Costs (m + n) := by
  intro s
  have hfirst := hc s
  rw [bind_apply]
  cases hrun : c s with
  | mk answer t =>
      rw [hrun] at hfirst
      cases answer with
      | error e =>
          simp only at hfirst ⊢
          omega
      | ok a =>
          have hrest := hf a t
          simp only at hfirst ⊢
          omega

theorem Costs.mono {c : Conversation α} {m n : Nat} (hc : c.Costs m) (h : m ≤ n) : c.Costs n :=
  fun s => Nat.le_trans (hc s) (Nat.add_le_add_left h _)

/-- What is required costs nothing, and what follows need be paid for only where it holds. -/
theorem costs_require_bind {answer : Except RouteError α} {f : α → Conversation β} {n : Nat}
    (hf : ∀ a, answer = .ok a → (f a).Costs n) : (require answer >>= f).Costs n := by
  intro s
  rw [bind_apply, require]
  cases answer with
  | error e => exact Nat.le_add_right s.account n
  | ok a => exact hf a rfl s

/-- The bound address of a reply is no longer than the longest name with its port. -/
theorem remaining_le {version code addressType : UInt8} {bound : Socks.BoundAddress}
    (h : Socks.readHeader version code addressType = .ok bound) (domainLength : UInt8) :
    bound.remaining domainLength ≤ 257 := by
  have hbyte := domainLength.toNat_lt
  unfold Socks.readHeader at h
  grind [Socks.BoundAddress.remaining]

/-- All that is received takes no more than 4 bytes of header, 1 of length and 257 of address. -/
theorem costs_negotiate (ceiling : Nat) (request : List UInt8) :
    (negotiate ceiling request).Costs (4 * request.length + 1082) := by
  suffices h : (negotiate ceiling request).Costs
      ((4 * Socks.greeting.length + 1) + ((4 * 2 + 3) + ((4 * request.length + 1) + ((4 * 4 + 3) +
        ((4 * 1 + 3) + (4 * 257 + 3)))))) from h.mono (by simp [Socks.greeting]; omega)
  refine (costs_send ceiling Socks.greeting).bind fun _ => ?_
  refine (costs_receive ceiling 2).bind fun method => ?_
  refine costs_require_bind fun _ _ => ?_
  refine (costs_send ceiling request).bind fun _ => ?_
  refine (costs_receive ceiling 4).bind fun header => ?_
  refine costs_require_bind fun bound hbound => ?_
  have hlast (domainLength : List UInt8) : Costs (do
      let _ ← receive ceiling (bound.remaining (domainLength.getD 0 0))
      pure ()) (4 * 257 + 3) := by
    have hshort := remaining_le hbound (domainLength.getD 0 0)
    exact ((costs_receive ceiling _).bind fun _ => costs_pure () 0).mono (by omega)
  cases bound with
  | domain => exact (costs_receive ceiling 1).bind hlast
  | fixed length => exact (costs_pure [] (4 * 1 + 3)).bind hlast

end Conversation

namespace Dialer

variable {ρ : Type}

/-- The bytes that a proxy is to be asked with, none if the target cannot be asked for. -/
def requestLength (c : DialContext) : Nat :=
  ((Socks.connectRequest c.target c.endpoint.port).toOption.getD []).length

theorem exists_eq_toList {α : Type} {xs : List α} (h : xs.length ≤ 1) :
    ∃ opened : Option α, xs = opened.toList := by
  match xs with
  | [] => exact ⟨none, rfl⟩
  | [x] => exact ⟨some x, rfl⟩

/-- A conversation with a proxy takes a single socket, or none. -/
theorem tunnel_calls_le (d : Dialer ρ) (ceiling : Nat) (c : DialContext) (proxy : SocketAddr4) :
    ∃ opened : Option Socket,
      (d.tunnel ceiling c proxy).2.network.sockets = d.network.sockets ++ opened.toList ∧
      (opened.map Socket.calls).getD 0 ≤
        4 * (Peer.eventsAt d.network.peers (.v4 proxy) + requestLength c) + 1085 := by
  rw [tunnel, requestLength]
  cases hrequest : Socks.connectRequest c.target c.endpoint.port with
  | error fault => exact ⟨none, (List.append_nil _).symm, Nat.zero_le _⟩
  | ok request =>
      simp only [Except.toOption, Option.getD_some]
      rcases d.network.dial_connects ceiling (.v4 proxy) with
        ⟨e, m, gone, hdial, hm, hlength, hgone⟩ | ⟨-, -, outcome, s, hconnect, hcases⟩
      · simp only [hdial]
        obtain ⟨opened, rfl⟩ := exists_eq_toList hlength
        refine ⟨opened, hm.sockets, ?_⟩
        cases opened with
        | none => exact Nat.zero_le _
        | some s =>
            rw [hgone s (Option.mem_toList.2 rfl)]
            exact Nat.zero_le _
      · have hpaid := Socket.account_connect_le { nonblocking := true } d.network.peers ceiling
          (.v4 proxy)
        rw [hconnect] at hpaid
        have hstart : ({ nonblocking := true } : Socket).account = 0 := rfl
        have hcosts := Conversation.costs_negotiate ceiling request s
        rcases hcases with ⟨fd, m, rfl, hdial, hm⟩ | ⟨e, m, rfl, hdial, hm⟩
        · obtain ⟨-, hk⟩ := hm.onSocket (negotiate ceiling request)
          simp only [hdial]
          cases hact : m.onSocket fd (negotiate ceiling request) with
          | mk answer k =>
              rw [hact] at hk
              refine ⟨some (negotiate ceiling request s).2, ?_, ?_⟩
              · cases answer with
                | ok _ => exact hk.sockets
                | error e => exact hk.close.sockets
              · simp only [Socket.account, Option.map_some, Option.getD_some]
                  at hpaid hstart hcosts ⊢
                omega
        · simp only [hdial]
          refine ⟨some s, hm.sockets, ?_⟩
          simp only [Socket.account, Option.map_some, Option.getD_some] at hpaid hstart ⊢
          omega

open Socket in
/-- Waiting, sending and receiving return after no more passes than there are events and bytes, but
for one, and every pass before the last uses up an event or moves the transfer on. The calls of all
of them, of connecting and of a whole conversation with a proxy are linear in the events and the
bytes. -/
theorem calls_linear :
    (Pass.Ends (Script.waitPass (.ready 0)) (Script.awaitFrom (.ready 0))
        (fun p q => q.1.length < p.1.length) (·.1.length + 1) ∧
      Pass.Ends (Script.waitPass .timedOut) (Script.awaitFrom .timedOut)
        (fun p q => q.1.length < p.1.length) (·.1.length + 1)) ∧
    (∀ ceiling,
      Pass.Ends (sendPass ceiling) (fun p => p.1.sendAll ceiling p.2) SendProgress
        (fun p => p.1.events + p.2.length + 1) ∧
      Pass.Ends (receivePass ceiling) (receiveOn ceiling) ReceiveProgress
        fun p => p.1.events + p.2.2 + 1) ∧
    (∀ (s : Socket) ceiling,
      (s.awaitWritable ceiling).2.calls ≤ s.calls + s.events + 2 ∧
      (s.awaitReadable ceiling).2.calls ≤ s.calls + s.events + 2 ∧
      (∀ peers target, (s.connect peers ceiling target).2.calls ≤
        s.calls + (Peer.meeting peers target).length + 3) ∧
      (∀ bytes, (s.sendAll ceiling bytes).2.calls ≤
        s.calls + 4 * (s.events + bytes.length) + 1) ∧
      (∀ length, (s.receiveExact ceiling length).2.calls ≤
        s.calls + 4 * (s.events + length) + 3) ∧
      ∀ request, (negotiate ceiling request s).2.calls ≤
        s.calls + 4 * (s.events + request.length) + 1082) ∧
    ∀ (d : Dialer ρ) ceiling c proxy, ∃ opened : Option Socket,
      (d.tunnel ceiling c proxy).2.network.sockets = d.network.sockets ++ opened.toList ∧
      (opened.map calls).getD 0 ≤
        4 * (Peer.eventsAt d.network.peers (.v4 proxy) + requestLength c) + 1085 := by
  refine ⟨⟨Script.ends_wait Readiness.ready_ne_interrupted,
      Script.ends_wait Readiness.timedOut_ne_interrupted⟩,
    fun ceiling => ⟨ends_sendAll ceiling, ends_receiveExact ceiling⟩,
    fun s ceiling => ⟨?_, ?_, fun peers target => s.calls_connect_le peers ceiling target,
      fun bytes => ?_, fun length => ?_, fun request => ?_⟩, tunnel_calls_le⟩
  · have hwaited := (s.waited_awaitWritable ceiling).calls
    omega
  · have hwaited := (s.waited_awaitReadable ceiling).calls
    omega
  · have hpaid := s.account_sendAll_le ceiling bytes
    simp only [account] at hpaid
    omega
  · have hpaid := s.account_receiveExact_le ceiling length
    simp only [account] at hpaid
    omega
  · have hpaid := Conversation.costs_negotiate ceiling request s
    simp only [account] at hpaid
    omega

end Dialer

end Egress
