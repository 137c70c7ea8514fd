import Egress.Proofs.Transfer

/-!
Sending to scripted peers. What a peer has accepted when a call ends is an initial part of the
bytes, all of them if and only if the call succeeds. On a connected socket the first event that is
no pause and takes nothing makes the call fail, and pauses put in before accepts change nothing: a
call that is interrupted, or would block and then waits however often it is interrupted, is made
again for what is left.
-/

namespace Egress

namespace Script

/-- A call that comes to nothing and is made again: it is interrupted, or it would block and the
wait after it is interrupted so many times. -/
inductive Pause : Script → Prop
  | interrupted : Pause [.errno 4]
  | blocked (count : Nat) : Pause (.errno 11 :: interruptions count)

/-- With the first script a peer takes so many bytes of what it is sent, in parts and with pauses
among them, and meets the next call with the second. -/
inductive Passes : Script → Nat → Script → Prop
  | here (s : Script) : Passes s 0 s
  | part {s t : Script} {more : Nat} (count : Nat) (next : Passes s more t) :
      Passes (.accept (count + 1) :: s) (count + 1 + more) t
  | pause {p s t : Script} {more : Nat} (hp : Pause p) (hs : s.Ready) (next : Passes s more t) :
      Passes (p ++ s) more t
  | cleared {s t : Script} {more : Nat} (count : Nat) (next : Passes s more t) :
      Passes (.errno 11 :: (interruptions count ++ .soError 0 :: s)) more t

/-- How a call fails that meets this: nothing is accepted, the wait after a call that would block
runs out of time or fails, or the call fails for good. -/
inductive Breaks : Script → RouteError → Prop
  | closed (rest : Script) : Breaks (.accept 0 :: rest) .peerClosed
  | stalled (count : Nat) (rest : Script) :
      Breaks (.errno 11 :: (interruptions count ++ .stall :: rest)) .dialTimeout
  | unready {e : Event} {code : Nat} {failure : RouteError} (count : Nat) (h : e.FailsWait code)
      (hmeans : RouteError.Means code failure) (rest : Script) :
      Breaks (.errno 11 :: (interruptions count ++ e :: rest)) failure
  | failed {code : Nat} {failure : RouteError} (h : ¬Retried code)
      (hmeans : RouteError.Means code failure) (rest : Script) :
      Breaks (.errno code :: rest) failure

/-- The next call is accepted, in whatever part. At its end a script accepts all. -/
def Accepting (s : Script) : Prop := ∀ e ∈ s.head?, e = .ok ∨ ∃ count, e = .accept count

/-- The second script is the first with pauses put in before accepts. -/
inductive Stretched : Script → Script → Prop
  | nil : Stretched [] []
  | keep {s t : Script} (e : Event) (next : Stretched s t) : Stretched (e :: s) (e :: t)
  | pause {s t p : Script} (hs : s.Accepting) (hp : Pause p) (next : Stretched s t) :
      Stretched s (p ++ t)

theorem Stretched.refl (s : Script) : Stretched s s := by
  induction s with
  | nil => exact .nil
  | cons e s ih => exact .keep e ih

theorem Pause.ready {p : Script} (h : Pause p) (s : Script) : Ready (p ++ s) := by
  cases h with
  | interrupted | blocked count =>
      intro e he
      obtain rfl := Option.some.inj he
      exact id

theorem Accepting.ready {s : Script} (h : s.Accepting) : s.Ready := by
  intro e he
  rcases h e he with rfl | ⟨count, rfl⟩ <;> exact id

theorem Stretched.ready {s t : Script} (h : Stretched s t) (hs : s.Accepting) : t.Ready := by
  cases h with
  | nil => exact hs.ready
  | keep e next => exact hs.ready
  | pause _ hp next => exact hp.ready _

/-- Once its pauses are over, a stretched script meets a call as the other does. -/
theorem Stretched.passes {s t : Script} (h : Stretched s t) :
    ∃ u, Passes t 0 u ∧
      ∀ length, (u.send length).1 = (s.send length).1 ∧
        Stretched (s.send length).2 (u.send length).2 := by
  induction h with
  | nil => exact ⟨[], .here [], fun _ => ⟨rfl, .nil⟩⟩
  | keep e next _ =>
      refine ⟨_, .here _, fun length => ?_⟩
      cases e <;> exact ⟨rfl, next⟩
  | pause hs hp next ih =>
      obtain ⟨u, hu, hsend⟩ := ih
      exact ⟨u, .pause hp (next.ready hs) hu, hsend⟩

theorem Stretched.await {s t : Script} (h : Stretched s t) :
    (t.await (.ready 0)).1 = (s.await (.ready 0)).1 ∧
      Stretched (s.await (.ready 0)).2.1 (t.await (.ready 0)).2.1 := by
  induction h with
  | nil => exact ⟨rfl, .nil⟩
  | keep e next ih =>
      cases e with
      | poll code =>
          simp only [Script.await]
          split
          · exact ih
          · exact ⟨rfl, next⟩
      | stall | soError _ | soFail _ => exact ⟨rfl, next⟩
      | ok | eof | data _ | accept _ | errno _ => exact ⟨rfl, .keep _ next⟩
  | pause hs hp next _ =>
      rw [await_ready hs.ready, await_ready (hp.ready _)]
      exact ⟨rfl, .pause hs hp next⟩

end Script

namespace Socket

theorem sendAll_cons (s : Socket) (ceiling : Nat) (b : UInt8) (bs : List UInt8) :
    s.sendAll ceiling (b :: bs) =
      match s.trySend (b :: bs) with
      | (.ok 0, t) => (.error .peerClosed, t)
      | (.ok (count + 1), t) => t.sendAll ceiling (bs.drop count)
      | (.error code, t) =>
          if code = Errno.interrupted then t.sendAll ceiling (b :: bs)
          else if code = Errno.wouldBlock then
            match t.awaitWritable ceiling with
            | (.ok (), u) => u.sendAll ceiling (b :: bs)
            | (.error e, u) => (.error (ofWait e), u)
          else (.error (.ofErrno code), t) := by
  rw [sendAll]
  split <;> rename_i hs
  · simp only [hs]
  · simp only [hs]
  · simp only [hs]
    split
    · rfl
    · split
      · split <;> rename_i ht <;> simp only [ht]
      · rfl

/-- `t` is connected, more by these bytes were accepted than of `s`, and the peer goes on with this
script. -/
structure Resumes (s t : Socket) (script : Script) (accepted : List UInt8) : Prop where
  connecting : t.connecting = none
  writing : t.writing = script
  sent : t.sent = s.sent ++ accepted

theorem resumes_trySend {s : Socket} (hc : s.connecting = none) (bytes : List UInt8)
    {outcome : Except Nat Nat} {rest : Script}
    (houtcome : (s.writing.send bytes.length).1 = outcome)
    (hrest : (s.writing.send bytes.length).2 = rest) :
    ∃ t, s.trySend bytes = (outcome, t) ∧
      s.Resumes t rest (bytes.take (outcome.toOption.getD 0)) := by
  refine ⟨_, Prod.ext houtcome rfl, hc, hrest, ?_⟩
  simp only [trySend, houtcome]

theorem resumes_awaitWritable {s : Socket} (hc : s.connecting = none) (ceiling : Nat)
    {outcome : Except WaitFailure Unit} {rest : Script}
    (houtcome : (s.writing.await (.ready 0)).1 = outcome)
    (hrest : (s.writing.await (.ready 0)).2.1 = rest) :
    ∃ t, s.awaitWritable ceiling = (outcome, t) ∧ s.Resumes t rest [] := by
  simp only [awaitWritable, hc]
  exact ⟨_, Prod.ext houtcome rfl, rfl, hrest, (List.append_nil _).symm⟩

theorem Resumes.refl {s : Socket} (hc : s.connecting = none) : s.Resumes s s.writing [] :=
  ⟨hc, rfl, (List.append_nil _).symm⟩

theorem Resumes.trans {s t u : Socket} {a b : Script} {as bs : List UInt8}
    (hst : s.Resumes t a as) (htu : t.Resumes u b bs) : s.Resumes u b (as ++ bs) where
  connecting := htu.connecting
  writing := htu.writing
  sent := by rw [htu.sent, hst.sent, List.append_assoc]

/-- A call that fails has sent nothing. -/
theorem resumes_of_errno {s : Socket} (hc : s.connecting = none) {code : Nat} {rest : Script}
    (hs : s.writing = .errno code :: rest) (bytes : List UInt8) :
    ∃ t, s.trySend bytes = (.error code, t) ∧ s.Resumes t rest [] :=
  resumes_trySend hc bytes (by rw [hs]; rfl) (by rw [hs]; rfl)

theorem sendAll_of_interrupted {s : Socket} (hc : s.connecting = none) {rest : Script}
    (hs : s.writing = .errno Errno.interrupted :: rest) (ceiling : Nat) (b : UInt8)
    (bs : List UInt8) :
    ∃ t, s.Resumes t rest [] ∧ s.sendAll ceiling (b :: bs) = t.sendAll ceiling (b :: bs) := by
  obtain ⟨t, htry, ht⟩ := resumes_of_errno hc hs (b :: bs)
  refine ⟨t, ht, ?_⟩
  rw [sendAll_cons, htry]
  exact if_pos rfl

/-- A call that would block is followed by a wait, with which it ends or goes on. -/
theorem sendAll_of_blocked {s : Socket} (hc : s.connecting = none) {waiting : Script}
    (hs : s.writing = .errno Errno.wouldBlock :: waiting) (ceiling : Nat) (b : UInt8)
    (bs : List UInt8) :
    ∃ t, s.Resumes t (waiting.await (.ready 0)).2.1 [] ∧ s.sendAll ceiling (b :: bs) =
      match (waiting.await (.ready 0)).1 with
      | .ok () => t.sendAll ceiling (b :: bs)
      | .error e => (.error (ofWait e), t) := by
  obtain ⟨t, htry, ht⟩ := resumes_of_errno hc hs (b :: bs)
  obtain ⟨u, hawait, hu⟩ := resumes_awaitWritable ht.connecting ceiling rfl rfl
  rw [ht.writing] at hawait hu
  refine ⟨u, ht.trans hu, ?_⟩
  have hnot : Errno.wouldBlock ≠ Errno.interrupted := by decide
  rw [sendAll_cons, htry]
  simp only [if_neg hnot, if_true, hawait]
  cases (waiting.await (.ready 0)).1 <;> rfl

/-- What is left of a call when the peer has taken a part is a call for the rest. -/
theorem sendAll_of_passes {s : Socket} {script left : Script} {count : Nat}
    (hc : s.connecting = none) (hs : s.writing = script) (h : script.Passes count left)
    (ceiling : Nat) {bytes : List UInt8} (hlt : count < bytes.length) :
    ∃ t, s.Resumes t left (bytes.take count) ∧
      s.sendAll ceiling bytes = t.sendAll ceiling (bytes.drop count) := by
  obtain ⟨b, bs, rfl⟩ := List.exists_cons_of_length_pos (Nat.zero_lt_of_lt hlt)
  induction h generalizing s b bs with
  | here script => exact ⟨s, hs ▸ Resumes.refl hc, rfl⟩
  | @part script left more count next ih =>
      have hcall : s.writing.send (b :: bs).length = (.ok (count + 1), script) := by
        rw [hs, Script.send, Nat.min_eq_left (by omega)]
      obtain ⟨t, htry, ht⟩ :=
        resumes_trySend hc (b :: bs) (congrArg Prod.fst hcall) (congrArg Prod.snd hcall)
      have hrest : more < (bs.drop count).length := by
        rw [List.length_drop]
        rw [List.length_cons] at hlt
        omega
      obtain ⟨c, cs, hcs⟩ := List.exists_cons_of_length_pos (Nat.zero_lt_of_lt hrest)
      obtain ⟨u, hu, heq⟩ := ih ht.connecting ht.writing c cs (hcs ▸ hrest)
      rw [← hcs] at hu heq
      refine ⟨u, ?_, ?_⟩
      · rw [List.take_add]
        exact ht.trans hu
      · rw [sendAll_cons, htry, ← List.drop_drop]
        exact heq
  | pause hp hready next ih =>
      cases hp with
      | interrupted =>
          obtain ⟨t, ht, heq⟩ := sendAll_of_interrupted hc hs ceiling b bs
          obtain ⟨u, hu, hrest⟩ := ih ht.connecting ht.writing b bs hlt
          exact ⟨u, ht.trans hu, heq.trans hrest⟩
      | blocked count =>
          rw [List.cons_append] at hs
          obtain ⟨t, ht, heq⟩ := sendAll_of_blocked hc hs ceiling b bs
          rw [Script.await_interruptions, Script.await_ready hready] at ht heq
          obtain ⟨u, hu, hrest⟩ := ih ht.connecting ht.writing b bs hlt
          exact ⟨u, ht.trans hu, heq.trans hrest⟩
  | cleared count next ih =>
      obtain ⟨t, ht, heq⟩ := sendAll_of_blocked hc hs ceiling b bs
      rw [Script.await_interruptions] at ht heq
      obtain ⟨u, hu, hrest⟩ := ih ht.connecting ht.writing b bs hlt
      exact ⟨u, ht.trans hu, heq.trans hrest⟩

theorem sendAll_of_breaks {s : Socket} {e : RouteError} (hc : s.connecting = none)
    (h : s.writing.Breaks e) (ceiling : Nat) {bytes : List UInt8} (hne : bytes ≠ []) :
    (s.sendAll ceiling bytes).1 = .error e ∧ (s.sendAll ceiling bytes).2.sent = s.sent := by
  obtain ⟨b, bs, rfl⟩ := List.exists_cons_of_ne_nil hne
  generalize hs : s.writing = script at h
  cases h with
  | closed rest =>
      have hcall : s.writing.send (b :: bs).length = (.ok 0, rest) := by
        rw [hs, Script.send, Nat.zero_min]
      obtain ⟨t, htry, ht⟩ :=
        resumes_trySend hc (b :: bs) (congrArg Prod.fst hcall) (congrArg Prod.snd hcall)
      rw [sendAll_cons, htry]
      exact ⟨rfl, ht.sent.trans (List.append_nil _)⟩
  | stalled count rest =>
      obtain ⟨t, ht, heq⟩ := sendAll_of_blocked hc hs ceiling b bs
      rw [Script.await_interruptions] at heq
      rw [heq]
      exact ⟨rfl, ht.sent.trans (List.append_nil _)⟩
  | unready count hfails hmeans rest =>
      obtain rfl := hmeans.eq_ofErrno
      obtain ⟨t, ht, heq⟩ := sendAll_of_blocked hc hs ceiling b bs
      obtain ⟨calls, hwait⟩ := Script.await_fails hfails (.ready 0) rest
      rw [Script.await_interruptions, hwait] at heq
      rw [heq]
      exact ⟨rfl, ht.sent.trans (List.append_nil _)⟩
  | @failed code _ hfail hmeans rest =>
      obtain rfl := hmeans.eq_ofErrno
      obtain ⟨t, htry, ht⟩ := resumes_of_errno hc hs (b :: bs)
      have hrun : s.sendAll ceiling (b :: bs) = (.error (.ofErrno code), t) := by
        rw [sendAll_cons, htry]
        exact (if_neg fun h => hfail (.inl h)).trans (if_neg fun h => hfail (.inr h))
      rw [hrun]
      exact ⟨rfl, ht.sent.trans (List.append_nil _)⟩

/-- Both sockets are connected and have sent the same, and the script of the second is that of the
first with pauses put in. -/
structure Paced (s t : Socket) : Prop where
  left : s.connecting = none
  right : t.connecting = none
  sent : t.sent = s.sent
  writing : s.writing.Stretched t.writing

theorem Paced.awaitWritable {s t : Socket} (h : s.Paced t) (ceiling : Nat)
    {outcome : Except WaitFailure Unit} {s' : Socket}
    (hs : s.awaitWritable ceiling = (outcome, s')) :
    ∃ t', t.awaitWritable ceiling = (outcome, t') ∧ s'.Paced t' := by
  obtain ⟨houtcome, hrest⟩ := h.writing.await
  obtain ⟨s'', hs'', hleft⟩ := resumes_awaitWritable h.left ceiling rfl rfl
  obtain ⟨t', ht', hright⟩ := resumes_awaitWritable h.right ceiling rfl rfl
  obtain ⟨rfl, rfl⟩ := Prod.mk.inj (hs''.symm.trans hs)
  refine ⟨t', houtcome ▸ ht', hleft.connecting, hright.connecting, ?_, ?_⟩
  · rw [hright.sent, hleft.sent, h.sent]
  · rw [hleft.writing, hright.writing]
    exact hrest

/-- After its pauses the second socket sends as the first does. -/
theorem Paced.trySend {s t : Socket} (h : s.Paced t) (ceiling : Nat) {b : UInt8} {bs : List UInt8}
    {outcome : Except Nat Nat} {s' : Socket} (hs : s.trySend (b :: bs) = (outcome, s')) :
    ∃ u t' : Socket, t.sendAll ceiling (b :: bs) = u.sendAll ceiling (b :: bs) ∧
      u.trySend (b :: bs) = (outcome, t') ∧ s'.Paced t' := by
  obtain ⟨script, hpasses, hsend⟩ := h.writing.passes
  have hpos : 0 < (b :: bs).length := Nat.zero_lt_succ _
  obtain ⟨u, hu, heq⟩ := sendAll_of_passes h.right rfl hpasses ceiling hpos
  obtain ⟨houtcome, hrest⟩ := hsend (b :: bs).length
  obtain ⟨s'', hs'', hleft⟩ := resumes_trySend h.left (b :: bs) rfl rfl
  obtain ⟨t', ht', hright⟩ := resumes_trySend hu.connecting (b :: bs) rfl rfl
  rw [hu.writing] at ht' hright
  obtain ⟨rfl, rfl⟩ := Prod.mk.inj (hs''.symm.trans hs)
  refine ⟨u, t', heq, houtcome ▸ ht', hleft.connecting, hright.connecting, ?_, ?_⟩
  · rw [hright.sent, hu.sent, hleft.sent, h.sent, houtcome, List.take_zero, List.append_nil]
  · rw [hleft.writing, hright.writing]
    exact hrest

/-- Pauses change neither what is sent nor how that ends. -/
theorem Paced.sendAll {s t : Socket} (h : s.Paced t) (ceiling : Nat) (bytes : List UInt8) :
    (t.sendAll ceiling bytes).1 = (s.sendAll ceiling bytes).1 ∧
      (t.sendAll ceiling bytes).2.sent = (s.sendAll ceiling bytes).2.sent := by
  fun_induction Socket.sendAll s ceiling bytes generalizing t with
  | case1 s =>
      rw [Socket.sendAll]
      exact ⟨rfl, h.sent⟩
  | case2 s b bs s' htry =>
      obtain ⟨u, t', heq, hu, hpaced⟩ := h.trySend ceiling htry
      rw [heq, sendAll_cons, hu]
      exact ⟨rfl, hpaced.sent⟩
  | case3 s b bs count s' htry ih =>
      obtain ⟨u, t', heq, hu, hpaced⟩ := h.trySend ceiling htry
      rw [heq, sendAll_cons, hu]
      exact ih hpaced
  | case4 s b bs s' htry ih =>
      obtain ⟨u, t', heq, hu, hpaced⟩ := h.trySend ceiling htry
      rw [heq, sendAll_cons, hu]
      simp only [if_true]
      exact ih hpaced
  | case5 s b bs s' s'' hwait htry _ ih =>
      obtain ⟨u, t', heq, hu, hpaced⟩ := h.trySend ceiling htry
      obtain ⟨v, hv, hready⟩ := hpaced.awaitWritable ceiling hwait
      rw [heq, sendAll_cons, hu]
      simp only [hv, if_neg (show Errno.wouldBlock ≠ Errno.interrupted by decide), if_true]
      exact ih hready
  | case6 s b bs s' e s'' hwait htry _ =>
      obtain ⟨u, t', heq, hu, hpaced⟩ := h.trySend ceiling htry
      obtain ⟨v, hv, hfailed⟩ := hpaced.awaitWritable ceiling hwait
      rw [heq, sendAll_cons, hu]
      simp only [hv, if_neg (show Errno.wouldBlock ≠ Errno.interrupted by decide), if_true]
      exact ⟨trivial, hfailed.sent⟩
  | case7 s b bs code s' htry hnot hnor =>
      obtain ⟨u, t', heq, hu, hpaced⟩ := h.trySend ceiling htry
      rw [heq, sendAll_cons, hu]
      simp only [if_neg hnot, if_neg hnor]
      exact ⟨trivial, hpaced.sent⟩

theorem paced_of_stretched {s : Socket} (hc : s.connecting = none) {script : Script}
    (h : s.writing.Stretched script) : s.Paced { s with writing := script } :=
  ⟨hc, hc, rfl, h⟩

/-- The bytes that a peer has accepted are the first of those to be sent, all of them if and only if
the call succeeds. On a connected socket the call fails as the first event says that is no pause and
takes nothing, and pauses put in before accepts change neither what is sent nor how the call
ends. -/
theorem sendAll_by_script (s : Socket) (ceiling : Nat) (bytes : List UInt8) :
    ∃ accepted, accepted <+: bytes ∧ (s.sendAll ceiling bytes).2.sent = s.sent ++ accepted ∧
      ((s.sendAll ceiling bytes).1 = .ok () ↔ accepted = bytes) ∧
      (s.connecting = none →
        (∀ count left e, s.writing.Passes count left → count < bytes.length → left.Breaks e →
          (s.sendAll ceiling bytes).1 = .error e ∧ accepted = bytes.take count) ∧
        ∀ script, s.writing.Stretched script →
          ({ s with writing := script }.sendAll ceiling bytes).1 = (s.sendAll ceiling bytes).1 ∧
          ({ s with writing := script }.sendAll ceiling bytes).2.sent = s.sent ++ accepted) := by
  obtain ⟨accepted, hprefix, hgave, hall⟩ := gave_sendAll s ceiling bytes
  refine ⟨accepted, hprefix, hgave.sent, hall, fun hc => ⟨fun count left e h hlt he => ?_, ?_⟩⟩
  · obtain ⟨t, ht, heq⟩ := sendAll_of_passes hc rfl h ceiling hlt
    have hne : bytes.drop count ≠ [] := by
      rw [Ne, List.drop_eq_nil_iff]
      omega
    obtain ⟨herror, hsent⟩ := sendAll_of_breaks ht.connecting (ht.writing ▸ he) ceiling hne
    rw [← heq] at herror hsent
    rw [hgave.sent, ht.sent] at hsent
    exact ⟨herror, List.append_cancel_left hsent⟩
  · intro script h
    obtain ⟨hanswer, hsent⟩ := (paced_of_stretched hc h).sendAll ceiling bytes
    exact ⟨hanswer, hsent.trans hgave.sent⟩

/-- The peer takes two bytes, and none after two pauses. -/
def closingSocket : Socket where
  writing := [.accept 2, .errno 11, .poll 4, .errno 4, .accept 0]

theorem sendAll_by_script_closed :
    (closingSocket.sendAll 10 [1, 2, 3]).1 = .error .peerClosed ∧
      (closingSocket.sendAll 10 [1, 2, 3]).2.sent = [1, 2] ∧
      ({ closingSocket with
        writing := .errno 4 :: closingSocket.writing }.sendAll 10
          [1, 2, 3]).2.sent = [1, 2] := by
  have haccepting (count : Nat) (rest : Script) : Script.Accepting (.accept count :: rest) :=
    fun e he => .inr ⟨count, (Option.some.inj he).symm⟩
  have hpasses : closingSocket.writing.Passes 2 [.accept 0] :=
    .part 1 (.pause (.blocked 1) (Script.Pause.interrupted.ready _)
      (.pause .interrupted (haccepting 0 []).ready (.here _)))
  obtain ⟨accepted, -, hsent, -, hconnected⟩ := sendAll_by_script closingSocket 10 [1, 2, 3]
  obtain ⟨hbreaks, hstretched⟩ := hconnected rfl
  obtain ⟨herror, rfl⟩ := hbreaks 2 _ _ hpasses (by decide) (.closed [])
  obtain ⟨-, hmore⟩ := hstretched _ (.pause (haccepting 2 _) .interrupted (.refl _))
  exact ⟨herror, hsent, hmore⟩

end Socket

end Egress
