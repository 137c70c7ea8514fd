import Egress.Socks
import Egress.Proofs.Receiving

/-!
Conversations on a socket, judged by what they send and by what they read. What a conversation sends
is an initial part of fixed bytes; how it ends with a peer that takes everything depends on the
bytes this peer delivers and on nothing else, as a reader of these bytes says.
-/

namespace Egress

namespace Conversation

variable {α β : Type}

theorem bind_apply (c : Conversation α) (f : α → Conversation β) (s : Socket) :
    (c >>= f) s =
      match c s with
      | (.ok a, t) => f a t
      | (.error e, t) => (.error e, t) := by
  change (ExceptT.bind c f) s = _
  simp only [ExceptT.bind, ExceptT.mk, bind, StateT.bind]
  cases hc : c s with
  | mk answer t =>
      cases answer <;> rfl

/-- Neither target nor flag of the socket has changed, these bytes were accepted meanwhile. -/
structure Spoke (s t : Socket) (bytes : List UInt8) : Prop where
  kind : t.kind = s.kind
  nonblocking : t.nonblocking = s.nonblocking
  targets : t.targets = s.targets
  sent : t.sent = s.sent ++ bytes
  connecting : s.connecting = none → t.connecting = none

theorem Spoke.refl (s : Socket) : Spoke s s [] :=
  ⟨rfl, rfl, rfl, (List.append_nil _).symm, id⟩

theorem Spoke.trans {s t u : Socket} {as bs : List UInt8} (hst : Spoke s t as)
    (htu : Spoke t u bs) : Spoke s u (as ++ bs) where
  kind := htu.kind.trans hst.kind
  nonblocking := htu.nonblocking.trans hst.nonblocking
  targets := htu.targets.trans hst.targets
  sent := by rw [htu.sent, hst.sent, List.append_assoc]
  connecting := fun hc => htu.connecting (hst.connecting hc)

/-- Whatever the peer does, an initial part of these bytes is sent, and all of them before the
conversation ends well. -/
def Sends (c : Conversation α) (bytes : List UInt8) : Prop :=
  ∀ s, ∃ accepted, accepted <+: bytes ∧ Spoke s (c s).2 accepted ∧
    ∀ a, (c s).1 = .ok a → accepted = bytes

theorem Sends.bind {c : Conversation α} {f : α → Conversation β} {as bs : List UInt8}
    (hc : c.Sends as) (hf : ∀ a, (f a).Sends bs) : (c >>= f).Sends (as ++ bs) := by
  intro s
  obtain ⟨first, hfirst, hspoke, hall⟩ := hc s
  rw [bind_apply]
  cases hrun : c s with
  | mk answer t =>
      rw [hrun] at hspoke hall
      cases answer with
      | error e =>
          refine ⟨first, hfirst.trans (List.prefix_append as bs), hspoke, fun a ha => ?_⟩
          cases ha
      | ok a =>
          obtain rfl := hall a rfl
          obtain ⟨second, hsecond, hlater, hrest⟩ := hf a t
          refine ⟨first ++ second, (List.prefix_append_right_inj first).2 hsecond,
            hspoke.trans hlater, fun b hb => ?_⟩
          rw [hrest b hb]

theorem Sends.bind_silent {c : Conversation α} {f : α → Conversation β} {as : List UInt8}
    (hc : c.Sends as) (hf : ∀ a, (f a).Sends []) : (c >>= f).Sends as := by
  simpa only [List.append_nil] using hc.bind hf

theorem sends_send (ceiling : Nat) (bytes : List UInt8) : (send ceiling bytes).Sends bytes := by
  intro s
  obtain ⟨accepted, hprefix, hgave, hall⟩ := Socket.gave_sendAll s ceiling bytes
  refine ⟨accepted, hprefix, ?_, fun _ hok => hall.1 hok⟩
  have hconnecting : s.connecting = none → (send ceiling bytes s).2.connecting = none :=
    fun hc => Socket.connecting_sendAll hc ceiling bytes
  rw [Socket.Gave] at hgave
  rw [send, hgave] at hconnecting ⊢
  exact ⟨rfl, rfl, rfl, rfl, hconnecting⟩

theorem sends_receive (ceiling length : Nat) : (receive ceiling length).Sends [] := by
  intro s
  obtain ⟨bytes, htook, -⟩ := Socket.took_receiveExact s ceiling length
  refine ⟨[], List.prefix_rfl, ?_, fun _ _ => rfl⟩
  rw [Socket.Took] at htook
  rw [receive, htook]
  exact ⟨rfl, rfl, rfl, (List.append_nil _).symm, id⟩

theorem sends_require (answer : Except RouteError α) : (require answer).Sends [] :=
  fun s => ⟨[], List.prefix_rfl, Spoke.refl s, fun _ _ => rfl⟩

theorem sends_pure (a : α) : (pure a : Conversation α).Sends [] :=
  fun s => ⟨[], List.prefix_rfl, Spoke.refl s, fun _ _ => rfl⟩

/-- The greeting goes first, and nothing goes behind the request. -/
theorem sends_negotiate (ceiling : Nat) (request : List UInt8) :
    (negotiate ceiling request).Sends (Socks.greeting ++ request) := by
  refine (sends_send ceiling Socks.greeting).bind fun _ => ?_
  refine (sends_receive ceiling 2).bind fun method => ?_
  refine (sends_require _).bind fun _ => ?_
  refine (sends_send ceiling request).bind_silent fun _ => ?_
  refine (sends_receive ceiling 4).bind_silent fun header => ?_
  refine (sends_require _).bind_silent fun bound => ?_
  have hlast : ∀ domainLength : List UInt8, Sends (do
      let _ ← receive ceiling (bound.remaining (domainLength.getD 0 0))
      pure ()) [] :=
    fun domainLength => (sends_receive ceiling _).bind_silent fun _ => sends_pure ()
  cases bound with
  | domain => exact (sends_receive ceiling 1).bind_silent hlast
  | fixed length => exact (sends_pure []).bind_silent hlast

/-- The socket is connected to a peer that takes what it is sent, and these bytes are still to come
from it before it stops. -/
structure Hears (ending : Ending) (s : Socket) (bytes : List UInt8) : Prop where
  connected : s.connecting = none
  takes : s.writing.Takes
  delivers : Script.Delivers ending s.reading bytes

/-- A reader of a stream of bytes, ended by its first error. -/
abbrev Reader (α : Type) := List UInt8 → Except RouteError (α × List UInt8)

/-- How a conversation and a reader end alike: in the same error, or with the same answer after
receiving what the reader has taken off the stream. -/
def Ends (ending : Ending) (s : Socket) (bytes : List UInt8) (run : Except RouteError α × Socket) :
    Except RouteError (α × List UInt8) → Prop
  | .ok (a, rest) => run.1 = .ok a ∧ Hears ending run.2 rest ∧
      ∃ taken, bytes = taken ++ rest ∧ run.2.received = s.received ++ taken
  | .error e => run.1 = .error e

/-- With a peer that takes everything the conversation ends as the reader does. -/
def Reads (ending : Ending) (c : Conversation α) (read : Reader α) : Prop :=
  ∀ s bytes, Hears ending s bytes → Ends ending s bytes (c s) (read bytes)

def andThen (read : Reader α) (next : α → Reader β) : Reader β := fun bytes =>
  match read bytes with
  | .ok (a, rest) => next a rest
  | .error e => .error e

/-- So many bytes off the front, or the error for a stream that ends before. -/
def takeBytes (ending : Ending) (length : Nat) : Reader (List UInt8) := fun bytes =>
  if length ≤ bytes.length then .ok (bytes.take length, bytes.drop length)
  else .error ending.error

theorem Ends.after {ending : Ending} {s t : Socket} {bytes taken rest : List UInt8}
    {run : Except RouteError α × Socket} {outcome : Except RouteError (α × List UInt8)}
    (hbytes : bytes = taken ++ rest) (hreceived : t.received = s.received ++ taken)
    (h : Ends ending t rest run outcome) : Ends ending s bytes run outcome := by
  cases outcome with
  | error e => exact h
  | ok result =>
      obtain ⟨hanswer, hhears, later, hrest, hlater⟩ := h
      refine ⟨hanswer, hhears, taken ++ later, ?_, ?_⟩
      · rw [hbytes, hrest, List.append_assoc]
      · rw [hlater, hreceived, List.append_assoc]

theorem Reads.bind {ending : Ending} {c : Conversation α} {f : α → Conversation β}
    {read : Reader α} {next : α → Reader β} (hc : c.Reads ending read)
    (hf : ∀ a, (f a).Reads ending (next a)) : (c >>= f).Reads ending (andThen read next) := by
  intro s bytes hs
  have hfirst := hc s bytes hs
  rw [bind_apply, andThen]
  cases hread : read bytes with
  | error e =>
      rw [hread] at hfirst
      cases hrun : c s with
      | mk answer t =>
          rw [hrun] at hfirst
          obtain rfl := hfirst
          rfl
  | ok result =>
      obtain ⟨a, rest⟩ := result
      rw [hread] at hfirst
      cases hrun : c s with
      | mk answer t =>
          rw [hrun] at hfirst
          obtain ⟨rfl, ht, taken, hbytes, hreceived⟩ := hfirst
          exact (hf a t rest ht).after hbytes hreceived

/-- To a peer that takes everything, sending makes no difference to what is read. -/
theorem Reads.send_bind {ending : Ending} {f : Unit → Conversation β} {read : Reader β}
    (hf : (f ()).Reads ending read) (ceiling : Nat) (bytes : List UInt8) :
    (send ceiling bytes >>= f).Reads ending read := by
  intro s stream hs
  obtain ⟨hok, htakes, hconnected⟩ := Socket.sendAll_of_takes hs.takes hs.connected ceiling bytes
  obtain ⟨accepted, -, hgave, -⟩ := Socket.gave_sendAll s ceiling bytes
  rw [bind_apply, send]
  cases hrun : s.sendAll ceiling bytes with
  | mk answer t =>
      rw [hrun] at hok htakes hconnected hgave
      obtain rfl := hok
      refine (hf t stream ⟨hconnected, htakes, ?_⟩).after (List.nil_append _).symm ?_
      · exact hgave.reading ▸ hs.delivers
      · rw [hgave.received, List.append_nil]

theorem reads_receive (ending : Ending) (ceiling length : Nat) :
    (receive ceiling length).Reads ending (takeBytes ending length) := by
  intro s bytes hs
  have hreceipt := Socket.receipt_of_delivers hs.delivers ceiling length
  obtain ⟨taken, htook, hanswer⟩ := Socket.took_receiveExact s ceiling length
  rw [Socket.Took] at htook
  rw [takeBytes]
  split
  · rename_i hle
    have hok := hreceipt.answer hle
    have hrest := hreceipt.rest hle
    refine ⟨hok, ⟨?_, ?_, hrest⟩, taken, ?_, ?_⟩
    · rw [receive, htook]
      exact hs.connected
    · rw [receive, htook]
      exact hs.takes
    · rw [← hanswer _ hok, List.take_append_drop]
    · rw [receive, htook]
  · rename_i hlt
    exact hreceipt.short (Nat.not_le.1 hlt)

def given (answer : Except RouteError α) : Reader α := fun bytes => answer.map (·, bytes)

theorem reads_require (ending : Ending) (answer : Except RouteError α) :
    (require answer).Reads ending (given answer) := by
  intro s bytes hs
  cases answer with
  | ok a => exact ⟨rfl, hs, [], rfl, (List.append_nil _).symm⟩
  | error e => rfl

theorem reads_pure (ending : Ending) (a : α) :
    (pure a : Conversation α).Reads ending (given (.ok a)) :=
  reads_require ending (.ok a)

end Conversation

namespace Socks

open Conversation

def readBound (ending : Ending) (bound : BoundAddress) : Reader Unit :=
  andThen (match bound with
    | .domain => takeBytes ending 1
    | .fixed _ => given (.ok [])) fun domainLength =>
  andThen (takeBytes ending (bound.remaining (domainLength.getD 0 0))) fun _ => given (.ok ())

def readAnswer (ending : Ending) : Reader Unit :=
  andThen (takeBytes ending 4) fun header =>
  andThen (given (readHeader (header.getD 0 0) (header.getD 1 0) (header.getD 3 0))) fun bound =>
  readBound ending bound

/-- Everything a proxy has to say before the tunnel is open. -/
def readReply (ending : Ending) : Reader Unit :=
  andThen (takeBytes ending 2) fun method =>
  andThen (given (checkMethod (method.getD 0 0) (method.getD 1 0))) fun _ =>
  readAnswer ending

end Socks

namespace Conversation

theorem reads_negotiate (ending : Ending) (ceiling : Nat) (request : List UInt8) :
    (negotiate ceiling request).Reads ending (Socks.readReply ending) := by
  refine Reads.send_bind ?_ ceiling Socks.greeting
  refine (reads_receive ending ceiling 2).bind fun method => ?_
  refine (reads_require ending _).bind fun _ => ?_
  refine Reads.send_bind ?_ ceiling request
  refine (reads_receive ending ceiling 4).bind fun header => ?_
  refine (reads_require ending _).bind fun bound => ?_
  have hlast : ∀ domainLength : List UInt8, Reads ending (do
      let _ ← receive ceiling (bound.remaining (domainLength.getD 0 0))
      pure ()) (andThen (takeBytes ending (bound.remaining (domainLength.getD 0 0)))
        fun _ => given (.ok ())) :=
    fun domainLength => (reads_receive ending ceiling _).bind fun _ => reads_pure ending ()
  cases bound with
  | domain => exact (reads_receive ending ceiling 1).bind hlast
  | fixed length => exact (reads_pure ending []).bind hlast

end Conversation

end Egress
