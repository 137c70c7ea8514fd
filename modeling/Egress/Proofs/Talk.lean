import Egress.Proofs.Descriptors
import Egress.Proofs.Negotiation
import Mathlib.Logic.Function.Iterate

/-!
Conversations one system call at a time. A talk is what is still to be said and heard; a step makes
one system call on the socket, or none, and gives the talk that is left. Taking steps until nothing
is left does what the conversation does. What holds at the start and is kept by every step holds at
every moment in between, however the peer behaves and however the talk ends.
-/

namespace Egress

inductive Talk
  | done (outcome : Except RouteError Unit)
  | connect (peers : List Peer) (target : SocketAddr) (next : Talk)
  /-- A wait until the socket can be written to. -/
  | settle (next : Talk)
  | send (bytes : List UInt8) (next : Talk)
  /-- A wait for bytes of which so many are wanted. -/
  | receive (length : Nat) (next : List UInt8 → Talk)
  /-- The wait for them is over. -/
  | take (length : Nat) (next : List UInt8 → Talk)

namespace Talk

variable {α β : Type}

def require (answer : Except RouteError α) (next : α → Talk) : Talk :=
  match answer with
  | .ok a => next a
  | .error e => .done (.error e)

def step (ceiling : Nat) : Talk × Socket → Talk × Socket
  | (.done outcome, s) => (.done outcome, s)
  | (.connect peers target next, s) =>
      match s.tryConnect peers target with
      | (.ok (), t) => (next, t)
      | (.error code, t) =>
          if Errno.leavesConnecting code then (.settle next, t)
          else (.done (.error (.ofErrno code)), t)
  | (.settle next, s) =>
      match s.awaitWritable ceiling with
      | (.ok (), t) => (next, t)
      | (.error e, t) => (.done (.error (Socket.ofWait e)), t)
  | (.send [] next, s) => (next, s)
  | (.send (b :: bs) next, s) =>
      match s.trySend (b :: bs) with
      | (.ok 0, t) => (.done (.error .peerClosed), t)
      | (.ok (count + 1), t) => (.send (bs.drop count) next, t)
      | (.error code, t) =>
          if code = Errno.interrupted then (.send (b :: bs) next, t)
          else if code = Errno.wouldBlock then (.settle (.send (b :: bs) next), t)
          else (.done (.error (.ofErrno code)), t)
  | (.receive length next, s) =>
      if length = 0 then (next [], s)
      else
        match s.awaitReadable ceiling with
        | (.ok (), t) => (.take length next, t)
        | (.error e, t) => (.done (.error (Socket.ofWait e)), t)
  | (.take length next, s) =>
      match s.tryReceive length with
      | (.ok [], t) => (.done (.error .peerClosed), t)
      | (.ok (b :: bs), t) =>
          (.receive (length - (b :: bs).length) fun more => next (b :: bs ++ more), t)
      | (.error code, t) =>
          if code = Errno.interrupted ∨ code = Errno.wouldBlock then (.receive length next, t)
          else (.done (.error (.ofErrno code)), t)

def Reaches (ceiling : Nat) (p q : Talk × Socket) : Prop := ∃ k, (step ceiling)^[k] p = q

theorem Reaches.refl (ceiling : Nat) (p : Talk × Socket) : Reaches ceiling p p := ⟨0, rfl⟩

theorem Reaches.trans {ceiling : Nat} {p q r : Talk × Socket} (hpq : Reaches ceiling p q)
    (hqr : Reaches ceiling q r) : Reaches ceiling p r := by
  obtain ⟨j, rfl⟩ := hpq
  obtain ⟨k, rfl⟩ := hqr
  exact ⟨k + j, Function.iterate_add_apply _ k j p⟩

theorem Reaches.step {ceiling : Nat} {p q r : Talk × Socket} (hp : Talk.step ceiling p = q)
    (hqr : Reaches ceiling q r) : Reaches ceiling p r :=
  Reaches.trans ⟨1, hp⟩ hqr

/-- The steps of this talk do what the conversation does, and go on with its answer. -/
def Performs (ceiling : Nat) (talk : (α → Talk) → Talk) (c : Conversation α) : Prop :=
  ∀ next s, Reaches ceiling (talk next, s) (require (c s).1 next, (c s).2)

theorem Performs.bind {ceiling : Nat} {f : (α → Talk) → Talk} {g : α → (β → Talk) → Talk}
    {c : Conversation α} {d : α → Conversation β} (hf : Performs ceiling f c)
    (hg : ∀ a, Performs ceiling (g a) (d a)) :
    Performs ceiling (fun next => f fun a => g a next) (c >>= d) := by
  intro next s
  have hfirst := hf (fun a => g a next) s
  rw [Conversation.bind_apply]
  cases hrun : c s with
  | mk answer t =>
      rw [hrun] at hfirst
      cases answer with
      | error e => exact hfirst
      | ok a => exact hfirst.trans (hg a next t)

theorem performs_require (ceiling : Nat) (answer : Except RouteError α) :
    Performs ceiling (require answer) (Conversation.require answer) :=
  fun next s => .refl ceiling (require answer next, s)

theorem performs_pure (ceiling : Nat) (a : α) :
    Performs ceiling (fun next => next a) (pure a) :=
  fun next s => .refl ceiling (next a, s)

theorem step_receive {ceiling length : Nat} {s t : Socket} (hpos : length ≠ 0)
    (hwait : s.awaitReadable ceiling = (.ok (), t)) (next : List UInt8 → Talk) :
    step ceiling (.receive length next, s) = (.take length next, t) := by
  simp only [step, if_neg hpos, hwait]

theorem step_send {ceiling : Nat} {s t : Socket} {b : UInt8} {bs : List UInt8}
    (htry : s.trySend (b :: bs) = (.error Errno.wouldBlock, t)) (next : Talk) :
    step ceiling (.send (b :: bs) next, s) = (.settle (.send (b :: bs) next), t) := by
  have hne : Errno.wouldBlock ≠ Errno.interrupted := by decide
  simp only [step, htry, if_neg hne, if_true]

theorem performs_connect (ceiling : Nat) (peers : List Peer) (target : SocketAddr) :
    Performs ceiling (fun next => .connect peers target (next ()))
      (fun s => s.connect peers ceiling target : Conversation Unit) := by
  intro next s
  change Reaches ceiling (.connect peers target (next ()), s)
    (require (s.connect peers ceiling target).1 next, (s.connect peers ceiling target).2)
  cases htry : s.tryConnect peers target with
  | mk outcome t =>
      cases outcome with
      | ok _ =>
          simp only [Socket.connect, htry]
          exact .step (by simp only [step, htry, require]) (.refl ..)
      | error code =>
          cases hleaves : Errno.leavesConnecting code with
          | false =>
              simp only [Socket.connect, htry, hleaves]
              exact .step (by simp only [step, htry, hleaves]; rfl) (.refl ..)
          | true =>
              have hfirst : step ceiling (.connect peers target (next ()), s) =
                  (.settle (next ()), t) := by
                simp only [step, htry, hleaves, if_true]
              simp only [Socket.connect, htry, hleaves, if_true]
              cases hwait : t.awaitWritable ceiling with
              | mk ready u =>
                  refine .step hfirst ?_
                  cases ready <;> exact .step (by simp only [step, hwait, require]) (.refl ..)

theorem performs_send (ceiling : Nat) (bytes : List UInt8) :
    Performs ceiling (fun next => .send bytes (next ())) (Conversation.send ceiling bytes) := by
  intro next s
  rw [Conversation.send]
  fun_induction Socket.sendAll s ceiling bytes with
  | case1 s => exact .step rfl (.refl ..)
  | case2 s b bs t htry => exact .step (by simp only [step, htry, require]) (.refl ..)
  | case3 s b bs count t htry ih => exact .step (by simp only [step, htry]) ih
  | case4 s b bs t htry ih => exact .step (by simp only [step, htry, if_true]) ih
  | case5 s b bs t u hwait htry _ ih =>
      exact .step (step_send htry _) (.step (by simp only [step, hwait]) ih)
  | case6 s b bs t e u hwait htry _ =>
      exact .step (step_send htry _) (.step (by simp only [step, hwait, require]) (.refl ..))
  | case7 s b bs code t htry hneither hnor =>
      exact .step (by simp only [step, htry, if_neg hneither, if_neg hnor, require]) (.refl ..)

theorem performs_receive (ceiling length : Nat) :
    Performs ceiling (.receive length) (Conversation.receive ceiling length) := by
  intro next s
  rw [Conversation.receive]
  fun_induction Socket.receiveExact s ceiling length generalizing next with
  | case1 s => exact .step rfl (.refl ..)
  | case2 s length hpos e t hwait =>
      exact .step (by simp only [step, if_neg hpos, hwait, require]) (.refl ..)
  | case3 s length hpos t hwait u htry =>
      refine .step (step_receive hpos hwait next) ?_
      exact .step (by simp only [step, htry, require]) (.refl ..)
  | case4 s length hpos t hwait b bs u htry more v hrest ih =>
      have hlater := ih fun more => next (b :: bs ++ more)
      rw [hrest] at hlater
      exact .step (step_receive hpos hwait next) (.step (by simp only [step, htry]) hlater)
  | case5 s length hpos t hwait b bs u htry e v hrest ih =>
      have hlater := ih fun more => next (b :: bs ++ more)
      rw [hrest] at hlater
      exact .step (step_receive hpos hwait next) (.step (by simp only [step, htry]) hlater)
  | case6 s length hpos t hwait code u htry hretry ih =>
      refine .step (step_receive hpos hwait next) ?_
      exact .step (by simp only [step, htry, if_pos hretry]) (ih next)
  | case7 s length hpos t hwait code u htry hfail =>
      refine .step (step_receive hpos hwait next) ?_
      exact .step (by simp only [step, htry, if_neg hfail, require]) (.refl ..)

theorem Performs.send_bind {ceiling : Nat} {talk : (β → Talk) → Talk} {d : Conversation β}
    (hd : Performs ceiling talk d) (bytes : List UInt8) :
    Performs ceiling (fun next => .send bytes (talk next))
      (Conversation.send ceiling bytes >>= fun _ => d) :=
  (performs_send ceiling bytes).bind fun _ => hd

theorem Performs.receive_bind {ceiling : Nat} {talk : List UInt8 → (β → Talk) → Talk}
    {d : List UInt8 → Conversation β} (hd : ∀ bytes, Performs ceiling (talk bytes) (d bytes))
    (length : Nat) :
    Performs ceiling (fun next => .receive length fun bytes => talk bytes next)
      (Conversation.receive ceiling length >>= d) :=
  (performs_receive ceiling length).bind hd

theorem Performs.require_bind {ceiling : Nat} {talk : α → (β → Talk) → Talk}
    {d : α → Conversation β} (hd : ∀ a, Performs ceiling (talk a) (d a))
    (answer : Except RouteError α) :
    Performs ceiling (fun next => require answer fun a => talk a next)
      (Conversation.require answer >>= d) :=
  (performs_require ceiling answer).bind hd

/-- The length byte of a bound name, and nothing for a bound address. -/
def boundLength : Socks.BoundAddress → (List UInt8 → Talk) → Talk
  | .domain, next => .receive 1 next
  | .fixed _, next => next []

/-- The talk with a proxy: greeting, method, request, reply header, bound address. -/
def negotiation (request : List UInt8) (next : Unit → Talk) : Talk :=
  .send Socks.greeting <| .receive 2 fun method =>
  require (Socks.checkMethod (method.getD 0 0) (method.getD 1 0)) fun _ =>
  .send request <| .receive 4 fun header =>
  require (Socks.readHeader (header.getD 0 0) (header.getD 1 0) (header.getD 3 0)) fun bound =>
  boundLength bound fun domainLength =>
  .receive (bound.remaining (domainLength.getD 0 0)) fun _ => next ()

theorem performs_negotiate (ceiling : Nat) (request : List UInt8) :
    Performs ceiling (negotiation request) (negotiate ceiling request) := by
  refine Performs.send_bind ?_ Socks.greeting
  refine Performs.receive_bind (fun method => ?_) 2
  refine Performs.require_bind (fun _ => ?_) _
  refine Performs.send_bind ?_ request
  refine Performs.receive_bind (fun header => ?_) 4
  refine Performs.require_bind (fun bound => ?_) _
  have hlast (domainLength : List UInt8) : Performs ceiling
      (fun next => .receive (bound.remaining (domainLength.getD 0 0)) fun _ => next ())
      (do
        let _ ← Conversation.receive ceiling (bound.remaining (domainLength.getD 0 0))
        pure ()) :=
    Performs.receive_bind (fun _ => performs_pure ceiling ()) _
  cases bound with
  | domain => exact Performs.receive_bind hlast 1
  | fixed length => exact (performs_pure ceiling []).bind hlast

/-- Whatever the peer does from now on, what was sent and what was received by then will always be
as `P` says. -/
def Always (P : List UInt8 → List UInt8 → Prop) : Talk → List UInt8 → List UInt8 → Prop
  | .done _, sent, received => P sent received
  | .connect _ _ next, sent, received => next.Always P sent received
  | .settle next, sent, received => next.Always P sent received
  | .send bytes next, sent, received =>
      (∀ part, part <+: bytes → P (sent ++ part) received) ∧ next.Always P (sent ++ bytes) received
  | .receive length next, sent, received =>
      (∀ part : List UInt8, part.length ≤ length → P sent (received ++ part)) ∧
        ∀ bytes : List UInt8, bytes.length = length →
          (next bytes).Always P sent (received ++ bytes)
  | .take length next, sent, received =>
      (∀ part : List UInt8, part.length ≤ length → P sent (received ++ part)) ∧
        ∀ bytes : List UInt8, bytes.length = length →
          (next bytes).Always P sent (received ++ bytes)

variable {P : List UInt8 → List UInt8 → Prop}

theorem Always.now {talk : Talk} {sent received : List UInt8} (h : talk.Always P sent received) :
    P sent received := by
  induction talk with
  | done outcome => exact h
  | connect peers target next ih => exact ih h
  | settle next ih => exact ih h
  | send bytes next ih => simpa only [List.append_nil] using h.1 [] List.nil_prefix
  | receive length next ih => simpa only [List.append_nil] using h.1 [] (Nat.zero_le length)
  | take length next ih => simpa only [List.append_nil] using h.1 [] (Nat.zero_le length)

theorem always_require {answer : Except RouteError α} {next : α → Talk}
    {sent received : List UInt8} (h : P sent received)
    (hnext : ∀ a, answer = .ok a → (next a).Always P sent received) :
    (require answer next).Always P sent received := by
  cases answer with
  | error e => exact h
  | ok a => exact hnext a rfl

/-- Part of the bytes has been sent. -/
theorem Always.send_rest {as bs : List UInt8} {next : Talk} {sent received : List UInt8}
    (h : (send (as ++ bs) next).Always P sent received) :
    (send bs next).Always P (sent ++ as) received := by
  obtain ⟨hparts, hnext⟩ := h
  rw [← List.append_assoc] at hnext
  refine ⟨?_, hnext⟩
  intro part hpart
  rw [List.append_assoc]
  exact hparts _ ((List.prefix_append_right_inj as).2 hpart)

/-- Part of the bytes has been received. -/
theorem Always.receive_rest {length : Nat} {next : List UInt8 → Talk}
    {sent received bytes : List UInt8} (h : (receive length next).Always P sent received)
    (hlength : bytes.length ≤ length) :
    (receive (length - bytes.length) fun more => next (bytes ++ more)).Always P sent
      (received ++ bytes) := by
  obtain ⟨hparts, hnext⟩ := h
  refine ⟨?_, ?_⟩
  · intro part hpart
    rw [List.append_assoc]
    apply hparts
    rw [List.length_append]
    omega
  · intro more hmore
    rw [List.append_assoc]
    apply hnext
    rw [List.length_append]
    omega

/-- What will always be so, of the socket as it is. -/
def Keeps (P : List UInt8 → List UInt8 → Prop) (p : Talk × Socket) : Prop :=
  p.1.Always P p.2.sent p.2.received

/-- A socket that was sent nothing and received nothing meanwhile. -/
theorem keeps_of_same {talk : Talk} {s t : Socket} (hsent : t.sent = s.sent)
    (hreceived : t.received = s.received) (h : talk.Always P s.sent s.received) :
    Keeps P (talk, t) := by
  change talk.Always P t.sent t.received
  rwa [hsent, hreceived]

section Step

variable {ceiling : Nat} {s : Socket}

theorem keeps_step_connect {peers : List Peer} {target : SocketAddr} {next : Talk}
    (h : Keeps P (.connect peers target next, s)) :
    Keeps P (step ceiling (.connect peers target next, s)) := by
  have haimed := s.aimed_tryConnect peers target
  simp only [step]
  cases htry : s.tryConnect peers target with
  | mk outcome t =>
      rw [htry] at haimed
      have hnext : Keeps P (next, t) := keeps_of_same haimed.sent haimed.received h
      cases outcome with
      | ok _ => exact hnext
      | error code =>
          simp only
          split
          · exact hnext
          · exact hnext.now

theorem keeps_step_settle {next : Talk} (h : Keeps P (.settle next, s)) :
    Keeps P (step ceiling (.settle next, s)) := by
  have haimed := s.aimed_awaitWritable ceiling
  simp only [step]
  cases hwait : s.awaitWritable ceiling with
  | mk outcome t =>
      rw [hwait] at haimed
      have hnext : Keeps P (next, t) := keeps_of_same haimed.sent haimed.received h
      cases outcome with
      | ok _ => exact hnext
      | error e => exact hnext.now

theorem keeps_step_send {bytes : List UInt8} {next : Talk}
    (h : Keeps P (.send bytes next, s)) : Keeps P (step ceiling (.send bytes next, s)) := by
  cases bytes with
  | nil =>
      have hnext := h.2
      rwa [List.append_nil] at hnext
  | cons b bs =>
      simp only [step]
      cases htry : s.trySend (b :: bs) with
      | mk outcome t =>
          have hgave := Socket.gave_of_trySend htry
          have hsent := hgave.sent
          cases outcome with
          | error code =>
              have hsame : Keeps P (.send (b :: bs) next, t) :=
                keeps_of_same (hsent.trans (List.append_nil _)) hgave.received h
              simp only
              split
              · exact hsame
              · split
                · exact hsame
                · exact hsame.now
          | ok count =>
              cases count with
              | zero =>
                  have hsame : Keeps P (.send (b :: bs) next, t) :=
                    keeps_of_same (hsent.trans (List.append_nil _)) hgave.received h
                  exact hsame.now
              | succ count =>
                  have hsplit : b :: bs = (b :: bs).take (count + 1) ++ bs.drop count := by simp
                  rw [hsplit] at h
                  have hrest := Always.send_rest h
                  change (send (bs.drop count) next).Always P t.sent t.received
                  rwa [hsent, hgave.received]

theorem keeps_step_receive {length : Nat} {next : List UInt8 → Talk}
    (h : Keeps P (.receive length next, s)) :
    Keeps P (step ceiling (.receive length next, s)) := by
  simp only [step]
  split
  · rename_i hzero
    have hnext := h.2 [] hzero.symm
    rwa [List.append_nil] at hnext
  · cases hwait : s.awaitReadable ceiling with
    | mk outcome t =>
        have htook := Socket.took_of_awaitReadable hwait
        have hsame : Keeps P (.take length next, t) :=
          keeps_of_same htook.sent (htook.received.trans (List.append_nil _)) h
        cases outcome with
        | ok _ => exact hsame
        | error e => exact hsame.now

theorem keeps_step_take {length : Nat} {next : List UInt8 → Talk}
    (h : Keeps P (.take length next, s)) : Keeps P (step ceiling (.take length next, s)) := by
  simp only [step]
  cases htry : s.tryReceive length with
  | mk outcome t =>
      have htook := Socket.took_of_tryReceive htry
      have hreceived := htook.received
      cases outcome with
      | error code =>
          have hsame : Keeps P (.receive length next, t) :=
            keeps_of_same htook.sent (hreceived.trans (List.append_nil _)) h
          simp only
          split
          · exact hsame
          · exact hsame.now
      | ok bytes =>
          have hlength := Socket.length_le_of_tryReceive htry
          cases bytes with
          | nil =>
              have hsame : Keeps P (.take length next, t) :=
                keeps_of_same htook.sent (hreceived.trans (List.append_nil _)) h
              exact hsame.now
          | cons b bs =>
              have hrest := Always.receive_rest h hlength
              change (receive _ _).Always P t.sent t.received
              rwa [htook.sent, hreceived]

end Step

/-- Every step keeps what will always be so. -/
theorem Keeps.step {ceiling : Nat} {p : Talk × Socket} (h : Keeps P p) :
    Keeps P (step ceiling p) := by
  obtain ⟨talk, s⟩ := p
  cases talk with
  | done outcome => exact h
  | connect peers target next => exact keeps_step_connect h
  | settle next => exact keeps_step_settle h
  | send bytes next => exact keeps_step_send h
  | receive length next => exact keeps_step_receive h
  | take length next => exact keeps_step_take h

theorem Keeps.moment {ceiling : Nat} {p : Talk × Socket} (h : Keeps P p) (k : Nat) :
    P ((Talk.step ceiling)^[k] p).2.sent ((Talk.step ceiling)^[k] p).2.received := by
  have hlast : Keeps P ((Talk.step ceiling)^[k] p) := by
    induction k with
    | zero => exact h
    | succ k ih =>
        rw [Function.iterate_succ_apply']
        exact ih.step
  exact hlast.now

end Talk

end Egress
