import Egress.Proofs.Dialing
import Egress.Proofs.Talk

/-!
What a proxy learns, and when. At every moment of a proxied dial it was sent an initial part of the
greeting and the request, and nothing of the request before it has chosen no authentication. So a
proxy that answers otherwise, or not at all, is never told the target.
-/

namespace Egress

/-- Of the greeting and the request an initial part was sent, and nothing of the request unless what
was received begins with the choice of no authentication. -/
def Discreet (request sent received : List UInt8) : Prop :=
  sent <+: Socks.greeting ++ request ∧
    (Socks.greeting.length < sent.length → [5, 0] <+: received)

theorem discreet_greeting {part : List UInt8} (h : part <+: Socks.greeting)
    (request received : List UInt8) : Discreet request part received := by
  refine ⟨h.trans (List.prefix_append _ _), ?_⟩
  intro hlong
  exact absurd h.length_le (Nat.not_le.2 hlong)

theorem discreet_request {request part received : List UInt8} (hpart : part <+: request)
    (h : [5, 0] <+: received) : Discreet request (Socks.greeting ++ part) received :=
  ⟨(List.prefix_append_right_inj _).2 hpart, fun _ => h⟩

theorem Socks.eq_of_checkMethod {method : List UInt8} (hlength : method.length = 2) {a : Unit}
    (h : checkMethod (method.getD 0 0) (method.getD 1 0) = .ok a) : method = [5, 0] := by
  match method, hlength with
  | [version, choice], _ =>
      change checkMethod version choice = .ok a at h
      unfold checkMethod at h
      split at h
      · cases h
      · rename_i hversion
        split at h
        · cases h
        · rename_i hchoice
          rw [Classical.not_not.1 hversion, Classical.not_not.1 hchoice]

namespace Talk

/-- After the request nothing more is sent. -/
theorem always_reply {request received : List UInt8} (h : [5, 0] <+: received) :
    Always (Discreet request) (.receive 4 fun header =>
      require (Socks.readHeader (header.getD 0 0) (header.getD 1 0) (header.getD 3 0)) fun bound =>
      boundLength bound fun domainLength =>
      .receive (bound.remaining (domainLength.getD 0 0)) fun _ => .done (.ok ()))
      (Socks.greeting ++ request) received := by
  have hmore {received : List UInt8} (h : [5, 0] <+: received) (more : List UInt8) :
      Discreet request (Socks.greeting ++ request) (received ++ more) :=
    discreet_request List.prefix_rfl (h.trans (List.prefix_append _ _))
  have hlast {received : List UInt8} (h : [5, 0] <+: received) (length : Nat) :
      Always (Discreet request) (.receive length fun _ => .done (.ok ()))
        (Socks.greeting ++ request) received :=
    ⟨fun part _ => hmore h part, fun bytes _ => hmore h bytes⟩
  refine ⟨fun part _ => hmore h part, ?_⟩
  intro header _
  have hheader : [5, 0] <+: received ++ header := h.trans (List.prefix_append _ _)
  apply always_require (hmore h header)
  intro bound _
  cases bound with
  | fixed length => exact hlast hheader length
  | domain =>
      refine ⟨fun part _ => hmore hheader part, ?_⟩
      intro domainLength _
      exact hlast (hheader.trans (List.prefix_append _ _)) _

theorem always_negotiation (request : List UInt8) :
    (negotiation request fun _ => .done (.ok ())).Always (Discreet request) [] [] := by
  refine ⟨fun part hpart => discreet_greeting hpart request [], ?_⟩
  refine ⟨fun part _ => discreet_greeting List.prefix_rfl request _, ?_⟩
  intro method hlength
  apply always_require (discreet_greeting List.prefix_rfl request _)
  intro a hchosen
  obtain rfl := Socks.eq_of_checkMethod hlength hchosen
  refine ⟨fun part hpart => discreet_request hpart List.prefix_rfl, ?_⟩
  exact always_reply List.prefix_rfl

/-- The talk of a proxied dial, on a new socket. -/
def tunnel (peers : List Peer) (proxy : SocketAddr4) (request : List UInt8) : Talk × Socket :=
  (.connect peers (.v4 proxy) (negotiation request fun _ => .done (.ok ())),
    { nonblocking := true })

end Talk

namespace Dialer

variable {ρ : Type}

/-- A proxied dial is its talk, as soon as there is a socket for it. -/
theorem proxiedDial_talks (d : Dialer ρ) (ceiling : Nat) (c : DialContext) (proxy : SocketAddr4)
    {request : List UInt8}
    (hrequest : Socks.connectRequest c.target c.endpoint.port = .ok request) :
    (∃ e gone, (d.proxiedDial ceiling c proxy).1 = .error e ∧
      d.network.Left (d.proxiedDial ceiling c proxy).2.network gone ∧ ∀ s ∈ gone, s = {}) ∨
    ∃ outcome s,
      Talk.Reaches ceiling (Talk.tunnel d.network.peers proxy request) (.done outcome, s) ∧
      ((∃ fd, outcome = .ok () ∧ s.sent = Socks.greeting ++ request ∧
        (d.proxiedDial ceiling c proxy).1 = .ok fd ∧
        d.network.Opened (d.proxiedDial ceiling c proxy).2.network fd
          { s with nonblocking := false }) ∨
      ∃ e, outcome = .error e ∧ (d.proxiedDial ceiling c proxy).1 = .error e ∧
        d.network.Left (d.proxiedDial ceiling c proxy).2.network [s]) := by
  rcases d.network.dial_connects ceiling (.v4 proxy) with
    ⟨e, m, gone, hdial, hm, -, hgone⟩ | ⟨hget, hset, outcome, s, hconnect, hcases⟩
  · refine .inl ⟨e, gone, ?_⟩
    simp only [proxiedDial, tunnel, hrequest, hdial, complain]
    exact ⟨trivial, hm, hgone⟩
  · have hjoins := Talk.performs_connect ceiling d.network.peers (.v4 proxy)
      (fun _ => Talk.negotiation request fun _ => .done (.ok ())) { nonblocking := true }
    simp only [hconnect] at hjoins
    rcases hcases with ⟨fd, m, rfl, hdial, hm⟩ | ⟨e, m, rfl, hdial, hm⟩
    · have htalk :=
        hjoins.trans (Talk.performs_negotiate ceiling request (fun _ => .done (.ok ())) s)
      rcases proxiedDial_of_connected hrequest hdial hm hget hset with
        ⟨hanswer, hok, hopened⟩ | ⟨e, hanswer, hfail, hleft⟩
      · obtain ⟨accepted, -, hspoke, hall⟩ := Conversation.sends_negotiate ceiling request s
        have hnew := (Socket.aimed_connect { nonblocking := true } d.network.peers ceiling
          (.v4 proxy)).sent
        rw [hconnect] at hnew
        have hsent : (negotiate ceiling request s).2.sent = Socks.greeting ++ request := by
          rw [hspoke.sent, hall () hanswer, hnew]
          rfl
        rw [hanswer] at htalk
        exact .inr ⟨.ok (), _, htalk, .inl ⟨fd, rfl, hsent, hok, hopened⟩⟩
      · rw [hanswer] at htalk
        exact .inr ⟨.error e, _, htalk, .inr ⟨e, rfl, hfail, hleft⟩⟩
    · refine .inr ⟨.error e, s, hjoins, .inr ⟨e, rfl, ?_⟩⟩
      simp only [proxiedDial, tunnel, hrequest, hdial, complain]
      exact ⟨trivial, hm⟩

/-- At every moment of a proxied dial the proxy was sent an initial part of the greeting and the
request, and nothing of the request unless it had answered the greeting with `5 0`. The dial opens
one socket at most, to the proxy, which is left as the last of these moments has it; if the dial
succeeds it is the one that is handed over, and the proxy was sent the greeting and the request as a
whole. A target that cannot be asked for is refused before anything is opened. -/
theorem proxiedDial_discloses (d : Dialer ρ) (ceiling : Nat) (c : DialContext)
    (proxy : SocketAddr4) :
    let r := d.proxiedDial ceiling c proxy
    match Socks.connectRequest c.target c.endpoint.port with
    | .error fault => r.1 = .error (.proxyProtocol fault) ∧ r.2.network = d.network
    | .ok request =>
        let moment := fun k => (Talk.step ceiling)^[k] (Talk.tunnel d.network.peers proxy request)
        (∀ k, (moment k).2.sent <+: Socks.greeting ++ request ∧
          (Socks.greeting.length < (moment k).2.sent.length → [5, 0] <+: (moment k).2.received)) ∧
        ∃ opened, r.2.network.sockets = d.network.sockets ++ opened ∧ opened.length ≤ 1 ∧
          (∀ s ∈ opened, s.targets ⊆ [.v4 proxy] ∧ (s = {} ∨
            ∃ k flag, (moment k).1 = .done (r.1.map fun _ => ()) ∧
              s = { (moment k).2 with nonblocking := flag })) ∧
          ∀ fd, r.1 = .ok fd → ∃ s, opened = [s] ∧ r.2.network.socketAt? fd = some s ∧
            s.sent = Socks.greeting ++ request := by
  intro r
  cases hrequest : Socks.connectRequest c.target c.endpoint.port with
  | error fault => exact proxiedDial_of_refused hrequest ceiling proxy
  | ok request =>
      refine ⟨?_, ?_⟩
      · intro k
        have hkeeps : Talk.Keeps (Discreet request)
            (Talk.tunnel d.network.peers proxy request) := Talk.always_negotiation request
        exact hkeeps.moment k
      · obtain ⟨opened, hdialed, hlength, htold⟩ := d.proxiedDial_dials ceiling c proxy hrequest
        have hsockets := hdialed.sockets
        refine ⟨opened, hsockets, hlength, ?_⟩
        rcases d.proxiedDial_talks ceiling c proxy hrequest with
          ⟨e, gone, hfail, hleft, hgone⟩ | ⟨outcome, s, ⟨k, hk⟩, hends⟩
        · obtain rfl := List.append_cancel_left (hsockets.symm.trans hleft.sockets)
          refine ⟨fun s hs => ⟨(htold s hs).1, .inl (hgone s hs)⟩, ?_⟩
          intro fd hfd
          cases hfail.symm.trans hfd
        · rcases hends with ⟨fd, rfl, hsent, hok, hopened⟩ | ⟨e, rfl, hfail, hleft⟩
          · obtain rfl := List.append_cancel_left (hsockets.symm.trans hopened.sockets)
            refine ⟨?_, ?_⟩
            · intro t ht
              refine ⟨(htold t ht).1, .inr ⟨k, false, ?_, ?_⟩⟩
              · simp only [hk, r, hok]
                rfl
              · simp only [hk, List.mem_singleton.1 ht]
            · intro given hgiven
              obtain rfl := Except.ok.inj (hok.symm.trans hgiven)
              exact ⟨_, rfl, hopened.socketAt?, hsent⟩
          · obtain rfl := List.append_cancel_left (hsockets.symm.trans hleft.sockets)
            refine ⟨?_, ?_⟩
            · intro t ht
              refine ⟨(htold t ht).1, .inr ⟨k, t.nonblocking, ?_, ?_⟩⟩
              · simp only [hk, r, hfail]
                rfl
              · simp only [hk, List.mem_singleton.1 ht]
            · intro fd hfd
              cases hfail.symm.trans hfd

end Dialer

end Egress
