import Egress.Proofs.Dialing

/-!
How the bytes of a proxy decide over a proxied dial. Either they start with the reply of a proxy
that has connected, and then the dial succeeds and what is behind this reply is left for the tunnel,
or they fail at the first field that is cut short or wrong, and then so does the dial.
-/

namespace Egress

namespace Socks

open Conversation

/-- The replies of a proxy that has connected: no authentication, then success with the address the
proxy has bound. -/
inductive AcceptedReply : List UInt8 → Prop
  | ipv4 (reserved : UInt8) {bound : List UInt8} (h : bound.length = 6) :
      AcceptedReply ([5, 0, 5, 0, reserved, 1] ++ bound)
  | ipv6 (reserved : UInt8) {bound : List UInt8} (h : bound.length = 18) :
      AcceptedReply ([5, 0, 5, 0, reserved, 4] ++ bound)
  | domain (reserved length : UInt8) {bound : List UInt8} (h : bound.length = length.toNat + 2) :
      AcceptedReply ([5, 0, 5, 0, reserved, 3, length] ++ bound)

/-- What the code of a reply means to whoever wanted to connect: the destination refuses connections
or cannot be reached, or else the proxy has rejected the request. -/
inductive Refusal : UInt8 → RouteError → Prop
  | generalFailure : Refusal 1 (.proxyRejected .generalFailure)
  | notAllowed : Refusal 2 (.proxyRejected .notAllowed)
  | networkUnreachable : Refusal 3 (.dialUnreachable (.proxy .networkUnreachable))
  | hostUnreachable : Refusal 4 (.dialUnreachable (.proxy .hostUnreachable))
  | connectionRefused : Refusal 5 (.dialRefused (.proxy .connectionRefused))
  | ttlExpired : Refusal 6 (.proxyRejected .ttlExpired)
  | commandNotSupported : Refusal 7 (.proxyRejected .commandNotSupported)
  | addressTypeNotSupported : Refusal 8 (.proxyRejected .addressTypeNotSupported)
  | unknown {code : UInt8} (h : 8 < code.toNat) : Refusal code (.proxyRejected (.unknown code))

/-- The streams that fail, each with the error of its first field that is cut short or wrong. -/
inductive FailedReply (ending : Ending) : List UInt8 → RouteError → Prop
  | methodCut {bytes : List UInt8} (h : bytes.length < 2) : FailedReply ending bytes ending.error
  | methodVersion {version method : UInt8} {rest : List UInt8} (h : version ≠ 5) :
      FailedReply ending (version :: method :: rest) (.proxyProtocol (.version version))
  | method {method : UInt8} {rest : List UInt8} (h : method ≠ 0) :
      FailedReply ending (5 :: method :: rest) (.proxyProtocol .authenticationRequired)
  | headerCut {rest : List UInt8} (h : rest.length < 4) :
      FailedReply ending (5 :: 0 :: rest) ending.error
  | headerVersion {version code reserved type : UInt8} {rest : List UInt8} (h : version ≠ 5) :
      FailedReply ending (5 :: 0 :: version :: code :: reserved :: type :: rest)
        (.proxyProtocol (.version version))
  | refusal {code reserved type : UInt8} {rest : List UInt8} {e : RouteError} (h : Refusal code e) :
      FailedReply ending (5 :: 0 :: 5 :: code :: reserved :: type :: rest) e
  | addressType {reserved type : UInt8} {rest : List UInt8} (h1 : type ≠ 1) (h3 : type ≠ 3)
      (h4 : type ≠ 4) :
      FailedReply ending (5 :: 0 :: 5 :: 0 :: reserved :: type :: rest)
        (.proxyProtocol (.addressType type))
  | ipv4Cut {reserved : UInt8} {rest : List UInt8} (h : rest.length < 6) :
      FailedReply ending (5 :: 0 :: 5 :: 0 :: reserved :: 1 :: rest) ending.error
  | ipv6Cut {reserved : UInt8} {rest : List UInt8} (h : rest.length < 18) :
      FailedReply ending (5 :: 0 :: 5 :: 0 :: reserved :: 4 :: rest) ending.error
  | lengthCut {reserved : UInt8} : FailedReply ending [5, 0, 5, 0, reserved, 3] ending.error
  | domainCut {reserved length : UInt8} {rest : List UInt8} (h : rest.length < length.toNat + 2) :
      FailedReply ending (5 :: 0 :: 5 :: 0 :: reserved :: 3 :: length :: rest) ending.error

theorem exists_refusal {code : UInt8} (h : code ≠ 0) : ∃ e, Refusal code e := by
  by_cases hunknown : 8 < code.toNat
  · exact ⟨_, .unknown hunknown⟩
  have hknown (n : Nat) (hn : n ≠ 0) (hle : n ≤ 8) : ∃ e, Refusal (UInt8.ofNat n) e := by
    match n with
    | 1 => exact ⟨_, .generalFailure⟩
    | 2 => exact ⟨_, .notAllowed⟩
    | 3 => exact ⟨_, .networkUnreachable⟩
    | 4 => exact ⟨_, .hostUnreachable⟩
    | 5 => exact ⟨_, .connectionRefused⟩
    | 6 => exact ⟨_, .ttlExpired⟩
    | 7 => exact ⟨_, .commandNotSupported⟩
    | 8 => exact ⟨_, .addressTypeNotSupported⟩
  have hcode := hknown code.toNat (fun hzero => h (UInt8.toNat_inj.1 hzero)) (by omega)
  rwa [UInt8.ofNat_toNat] at hcode

theorem length_lt_or_split (bytes : List UInt8) (length : Nat) :
    bytes.length < length ∨
      ∃ front rest : List UInt8, front.length = length ∧ bytes = front ++ rest := by
  rcases Nat.lt_or_ge bytes.length length with hlt | hge
  · exact .inl hlt
  · refine .inr ⟨bytes.take length, bytes.drop length, ?_, (List.take_append_drop ..).symm⟩
    rw [List.length_take, Nat.min_eq_left hge]

/-- What a stream is behind the choice of no authentication and the header of a success. -/
theorem accepted_or_failed_bound (ending : Ending) (reserved type : UInt8) (rest : List UInt8) :
    (∃ reply more, AcceptedReply reply ∧
      5 :: 0 :: 5 :: 0 :: reserved :: type :: rest = reply ++ more) ∨
    ∃ e, FailedReply ending (5 :: 0 :: 5 :: 0 :: reserved :: type :: rest) e := by
  by_cases h1 : type = 1
  · subst h1
    rcases length_lt_or_split rest 6 with hcut | ⟨bound, more, hlength, rfl⟩
    · exact .inr ⟨_, .ipv4Cut hcut⟩
    · exact .inl ⟨_, more, .ipv4 reserved hlength, rfl⟩
  by_cases h4 : type = 4
  · subst h4
    rcases length_lt_or_split rest 18 with hcut | ⟨bound, more, hlength, rfl⟩
    · exact .inr ⟨_, .ipv6Cut hcut⟩
    · exact .inl ⟨_, more, .ipv6 reserved hlength, rfl⟩
  by_cases h3 : type = 3
  · subst h3
    cases rest with
    | nil => exact .inr ⟨_, .lengthCut⟩
    | cons length rest =>
        rcases length_lt_or_split rest (length.toNat + 2) with hcut | ⟨bound, more, hlength, rfl⟩
        · exact .inr ⟨_, .domainCut hcut⟩
        · exact .inl ⟨_, more, .domain reserved length hlength, rfl⟩
  exact .inr ⟨_, .addressType h1 h3 h4⟩

theorem accepted_or_failed_answer (ending : Ending) (answer : List UInt8) :
    (∃ reply more, AcceptedReply reply ∧ 5 :: 0 :: answer = reply ++ more) ∨
      ∃ e, FailedReply ending (5 :: 0 :: answer) e := by
  match answer with
  | [] | [_] | [_, _] | [_, _, _] => exact .inr ⟨_, .headerCut (by simp)⟩
  | version :: code :: reserved :: type :: rest =>
      by_cases hversion : version = 5
      · subst hversion
        by_cases hcode : code = 0
        · subst hcode
          exact accepted_or_failed_bound ending reserved type rest
        · obtain ⟨e, he⟩ := exists_refusal hcode
          exact .inr ⟨e, .refusal he⟩
      · exact .inr ⟨_, .headerVersion hversion⟩

/-- Every stream starts with an accepted reply or fails. -/
theorem accepted_or_failed (ending : Ending) (bytes : List UInt8) :
    (∃ reply more, AcceptedReply reply ∧ bytes = reply ++ more) ∨
      ∃ e, FailedReply ending bytes e := by
  match bytes with
  | [] | [_] => exact .inr ⟨_, .methodCut (by simp)⟩
  | version :: method :: answer =>
      by_cases hversion : version = 5
      · subst hversion
        by_cases hmethod : method = 0
        · subst hmethod
          exact accepted_or_failed_answer ending answer
        · exact .inr ⟨_, .method hmethod⟩
      · exact .inr ⟨_, .methodVersion hversion⟩

section Reading

variable {ending : Ending} {β : Type}

theorem andThen_takeBytes {length : Nat} {next : List UInt8 → Reader β} (piece : List UInt8)
    (h : piece.length = length) (rest : List UInt8) :
    andThen (takeBytes ending length) next (piece ++ rest) = next piece rest := by
  subst h
  simp [andThen, takeBytes]

theorem andThen_takeBytes_short {length : Nat} {next : List UInt8 → Reader β} {bytes : List UInt8}
    (h : bytes.length < length) :
    andThen (takeBytes ending length) next bytes = .error ending.error := by
  simp only [andThen, takeBytes, if_neg (Nat.not_le.2 h)]

theorem readReply_of_method {version method : UInt8} {e : RouteError}
    (h : checkMethod version method = .error e) (rest : List UInt8) :
    readReply ending (version :: method :: rest) = .error e := by
  refine (andThen_takeBytes [version, method] rfl rest).trans ?_
  change andThen (given (checkMethod version method)) _ rest = _
  rw [h]
  rfl

theorem readReply_granted (rest : List UInt8) :
    readReply ending (5 :: 0 :: rest) = readAnswer ending rest :=
  andThen_takeBytes [5, 0] rfl rest

theorem readAnswer_of_header {version code reserved type : UInt8} {e : RouteError}
    (h : readHeader version code type = .error e) (rest : List UInt8) :
    readAnswer ending (version :: code :: reserved :: type :: rest) = .error e := by
  refine (andThen_takeBytes [version, code, reserved, type] rfl rest).trans ?_
  change andThen (given (readHeader version code type)) _ rest = _
  rw [h]
  rfl

theorem readAnswer_granted {code reserved type : UInt8} {bound : BoundAddress}
    (h : readHeader 5 code type = .ok bound) (rest : List UInt8) :
    readAnswer ending (5 :: code :: reserved :: type :: rest) = readBound ending bound rest := by
  refine (andThen_takeBytes [5, code, reserved, type] rfl rest).trans ?_
  change andThen (given (readHeader 5 code type)) _ rest = _
  rw [h]
  rfl

theorem readBound_fixed {length : Nat} {bound : List UInt8} (h : bound.length = length)
    (rest : List UInt8) : readBound ending (.fixed length) (bound ++ rest) = .ok ((), rest) :=
  andThen_takeBytes bound h rest

theorem readBound_fixed_short {length : Nat} {bytes : List UInt8} (h : bytes.length < length) :
    readBound ending (.fixed length) bytes = .error ending.error :=
  andThen_takeBytes_short h

theorem readBound_domain (length : UInt8) {bound : List UInt8}
    (h : bound.length = length.toNat + 2) (rest : List UInt8) :
    readBound ending .domain (length :: (bound ++ rest)) = .ok ((), rest) :=
  (andThen_takeBytes [length] rfl (bound ++ rest)).trans (andThen_takeBytes bound h rest)

theorem readBound_domain_short (length : UInt8) {bytes : List UInt8}
    (h : bytes.length < length.toNat + 2) :
    readBound ending .domain (length :: bytes) = .error ending.error :=
  (andThen_takeBytes [length] rfl bytes).trans (andThen_takeBytes_short h)

end Reading

theorem Refusal.readHeader_eq {code : UInt8} {e : RouteError} (h : Refusal code e)
    (type : UInt8) : readHeader 5 code type = .error e := by
  cases h with
  | unknown h =>
      have hcode : ReplyCode.ofByte code = .unknown code := by
        unfold ReplyCode.ofByte
        split <;> first | omega | rfl
      rw [readHeader, if_neg (by simp), hcode]
      rfl
  | generalFailure | notAllowed | networkUnreachable | hostUnreachable | connectionRefused
  | ttlExpired | commandNotSupported | addressTypeNotSupported => rfl

theorem readReply_of_accepted {reply : List UInt8} (h : AcceptedReply reply) (ending : Ending)
    (rest : List UInt8) : readReply ending (reply ++ rest) = .ok ((), rest) := by
  cases h with
  | ipv4 reserved h =>
      exact (readReply_granted _).trans ((readAnswer_granted rfl _).trans (readBound_fixed h rest))
  | ipv6 reserved h =>
      exact (readReply_granted _).trans ((readAnswer_granted rfl _).trans (readBound_fixed h rest))
  | domain reserved length h =>
      exact (readReply_granted _).trans
        ((readAnswer_granted rfl _).trans (readBound_domain length h rest))

theorem readReply_of_failed {ending : Ending} {bytes : List UInt8} {e : RouteError}
    (h : FailedReply ending bytes e) : readReply ending bytes = .error e := by
  cases h with
  | methodCut h => exact andThen_takeBytes_short h
  | methodVersion h => exact readReply_of_method (if_pos h) _
  | method h =>
      refine readReply_of_method ?_ _
      simp [checkMethod, h]
  | headerCut h => exact (readReply_granted _).trans (andThen_takeBytes_short h)
  | headerVersion h => exact (readReply_granted _).trans (readAnswer_of_header (if_pos h) _)
  | refusal h => exact (readReply_granted _).trans (readAnswer_of_header (h.readHeader_eq _) _)
  | addressType h1 h3 h4 =>
      refine (readReply_granted _).trans (readAnswer_of_header ?_ _)
      simp [readHeader, ReplyCode.ofByte, h1, h3, h4]
  | ipv4Cut h =>
      exact (readReply_granted _).trans ((readAnswer_granted rfl _).trans (readBound_fixed_short h))
  | ipv6Cut h =>
      exact (readReply_granted _).trans ((readAnswer_granted rfl _).trans (readBound_fixed_short h))
  | lengthCut =>
      have hheader : readHeader 5 0 3 = .ok .domain := rfl
      have hnone : ([] : List UInt8).length < 1 := Nat.zero_lt_one
      exact (readReply_granted _).trans
        ((readAnswer_granted hheader _).trans (andThen_takeBytes_short hnone))
  | @domainCut _ length _ h =>
      exact (readReply_granted _).trans
        ((readAnswer_granted rfl _).trans (readBound_domain_short length h))

end Socks

namespace Dialer

variable {ρ : Type}

section Reply

variable {d : Dialer ρ} {ceiling : Nat} {c : DialContext} {proxy : SocketAddr4}
variable {request : List UInt8} {peer : Peer} {ending : Ending}

/-- Once connected, everything the proxy will ever say is still to come. -/
theorem hears_of_dial {bytes : List UInt8}
    (hpeer : d.network.peers.find? (·.address == .v4 proxy) = some peer)
    (hconnect : (d.network.dial ceiling (.v4 proxy)).1.isOk) (htakes : peer.send.Takes)
    (hdelivers : Script.Delivers ending peer.receive bytes) :
    d.network.faults.getFlag = none ∧ d.network.faults.setFlag = none ∧ ∃ fd m s,
      d.network.dial ceiling (.v4 proxy) = (.ok fd, m) ∧ d.network.Opened m fd s ∧
      Conversation.Hears ending s bytes ∧ s.received = [] := by
  rcases d.network.dial_cases ceiling (.v4 proxy) with
    ⟨hget, hset, fd, m, s, peer', hdial, hm, haimed, hpeer', hat⟩ | ⟨e, m, gone, hdial, -⟩
  · obtain rfl : peer = peer' := Option.some.inj (hpeer.symm.trans hpeer')
    exact ⟨hget, hset, fd, m, s, hdial, hm,
      ⟨hat.connecting, hat.writing ▸ htakes, hat.reading ▸ hdelivers⟩, haimed.received⟩
  · simp [hdial, Except.isOk, Except.toBool] at hconnect

theorem proxiedDial_of_accepted {reply more : List UInt8}
    (hrequest : Socks.connectRequest c.target c.endpoint.port = .ok request)
    (hpeer : d.network.peers.find? (·.address == .v4 proxy) = some peer)
    (hconnect : (d.network.dial ceiling (.v4 proxy)).1.isOk) (htakes : peer.send.Takes)
    (hdelivers : Script.Delivers ending peer.receive (reply ++ more))
    (hreply : Socks.AcceptedReply reply) :
    ∃ fd s, (d.proxiedDial ceiling c proxy).1 = .ok fd ∧
      (d.proxiedDial ceiling c proxy).2.network.socketAt? fd = some s ∧
      s.received = reply ∧ Script.Delivers ending s.reading more := by
  obtain ⟨hget, hset, fd, m, s, hdial, hm, hhears, hnothing⟩ :=
    hears_of_dial hpeer hconnect htakes hdelivers
  have hends := Conversation.reads_negotiate ending ceiling request s _ hhears
  rw [Socks.readReply_of_accepted hreply] at hends
  obtain ⟨hok, hrest, taken, htaken, hreceived⟩ := hends
  obtain rfl := List.append_cancel_right htaken
  rcases proxiedDial_of_connected hrequest hdial hm hget hset with
    ⟨-, hfd, hopened⟩ | ⟨e, hfail, -⟩
  · refine ⟨fd, _, hfd, hopened.socketAt?, ?_, hrest.delivers⟩
    rw [hreceived, hnothing, List.nil_append]
  · rw [hok] at hfail
    cases hfail

theorem proxiedDial_of_failed {bytes : List UInt8} {e : RouteError}
    (hrequest : Socks.connectRequest c.target c.endpoint.port = .ok request)
    (hpeer : d.network.peers.find? (·.address == .v4 proxy) = some peer)
    (hconnect : (d.network.dial ceiling (.v4 proxy)).1.isOk) (htakes : peer.send.Takes)
    (hdelivers : Script.Delivers ending peer.receive bytes)
    (hfailed : Socks.FailedReply ending bytes e) : (d.proxiedDial ceiling c proxy).1 = .error e := by
  obtain ⟨hget, hset, fd, m, s, hdial, hm, hhears, -⟩ :=
    hears_of_dial hpeer hconnect htakes hdelivers
  have hends := Conversation.reads_negotiate ending ceiling request s _ hhears
  rw [Socks.readReply_of_failed hfailed] at hends
  rcases proxiedDial_of_connected hrequest hdial hm hget hset with
    ⟨hok, -⟩ | ⟨e', hfail, herror, -⟩
  · rw [hends] at hok
    cases hok
  · rw [herror, Except.error.inj (hfail.symm.trans hends)]

end Reply

/-- With a proxy that takes what it is sent, the outcome of a proxied dial depends on the bytes of
the proxy alone, however they are cut into chunks and whatever interrupts them. -/
theorem proxiedDial_by_reply (d : Dialer ρ) (ceiling : Nat) (c : DialContext) (proxy : SocketAddr4)
    {request : List UInt8} {peer : Peer} {ending : Ending} {bytes : List UInt8}
    (hrequest : Socks.connectRequest c.target c.endpoint.port = .ok request)
    (hpeer : d.network.peers.find? (·.address == .v4 proxy) = some peer)
    (hconnect : (d.network.dial ceiling (.v4 proxy)).1.isOk) (htakes : peer.send.Takes)
    (hdelivers : Script.Delivers ending peer.receive bytes) :
    ((∃ fd, (d.proxiedDial ceiling c proxy).1 = .ok fd) ↔
      ∃ reply more, Socks.AcceptedReply reply ∧ bytes = reply ++ more) ∧
    (∀ reply more, Socks.AcceptedReply reply → bytes = reply ++ more →
      ∃ fd s, (d.proxiedDial ceiling c proxy).1 = .ok fd ∧
        (d.proxiedDial ceiling c proxy).2.network.socketAt? fd = some s ∧
        s.received = reply ∧ Script.Delivers ending s.reading more ∧
        ∀ later lengths, Socket.wanted lengths ≤ more.length →
          (runAll (·.receiveExact later ·) s lengths).1 = (Socket.slices lengths more).map .ok) ∧
    ∀ e, (d.proxiedDial ceiling c proxy).1 = .error e ↔ Socks.FailedReply ending bytes e := by
  have hgood : ∀ reply more, Socks.AcceptedReply reply → bytes = reply ++ more →
      ∃ fd s, (d.proxiedDial ceiling c proxy).1 = .ok fd ∧
        (d.proxiedDial ceiling c proxy).2.network.socketAt? fd = some s ∧
        s.received = reply ∧ Script.Delivers ending s.reading more := by
    intro reply more hreply hbytes
    rw [hbytes] at hdelivers
    exact proxiedDial_of_accepted hrequest hpeer hconnect htakes hdelivers hreply
  have hbad : ∀ e, Socks.FailedReply ending bytes e →
      (d.proxiedDial ceiling c proxy).1 = .error e :=
    fun e he => proxiedDial_of_failed hrequest hpeer hconnect htakes hdelivers he
  -- Every stream is of one of the two kinds, so the converses follow from these two.
  refine ⟨⟨?_, ?_⟩, ?_, fun e => ⟨?_, hbad e⟩⟩
  · rintro ⟨fd, hok⟩
    rcases Socks.accepted_or_failed ending bytes with haccept | ⟨e, he⟩
    · exact haccept
    · rw [hbad e he] at hok
      cases hok
  · rintro ⟨reply, more, hreply, hbytes⟩
    obtain ⟨fd, s, hfd, -⟩ := hgood reply more hreply hbytes
    exact ⟨fd, hfd⟩
  · intro reply more hreply hbytes
    obtain ⟨fd, s, hfd, hs, hreceived, hmore⟩ := hgood reply more hreply hbytes
    exact ⟨fd, s, hfd, hs, hreceived, hmore, fun later lengths hle =>
      (Socket.runAll_receiveExact hmore later hle).1⟩
  · intro hfail
    rcases Socks.accepted_or_failed ending bytes with ⟨reply, more, hreply, hbytes⟩ | ⟨e', he'⟩
    · obtain ⟨fd, s, hfd, -⟩ := hgood reply more hreply hbytes
      rw [hfd] at hfail
      cases hfail
    · rw [hbad e' he'] at hfail
      exact Except.error.inj hfail ▸ he'

/-- A proxy whose reply is interrupted and cut at odd places. A byte of the tunnel follows. -/
def dribblingProxy : Peer where
  address := .v4 ⟨.of 10 0 0 1, 1080⟩
  send := [.accept 1, .errno Errno.wouldBlock]
  receive := [.data [5], .errno Errno.interrupted, .data [0, 5, 0, 0], .poll Errno.interrupted,
    .data [3, 1, 97, 0, 80, 104], .eof]

theorem delivers_dribblingProxy :
    Script.Delivers .closed dribblingProxy.receive [5, 0, 5, 0, 0, 3, 1, 97, 0, 80, 104] :=
  .chunk (.retry (.inl rfl) (.chunk (.interrupted (.chunk (.closed [])))))

theorem takes_dribblingProxy : dribblingProxy.send.Takes := by
  intro e he
  simp only [dribblingProxy, List.mem_cons, List.not_mem_nil, or_false] at he
  rcases he with rfl | rfl
  · exact .inr (.inl ⟨0, rfl⟩)
  · exact .inr (.inr ⟨_, rfl, .inr rfl⟩)

def dribbledDialer : Dialer Unit where
  now := 0
  journal := { processId := 1 }
  network := { peers := [dribblingProxy] }
  resolver := ()

def dribbledContext : DialContext := ⟨.new (.v4 (.of 6 0 0 1)) 80, .direct, some "b"⟩

theorem proxiedDial_by_reply_dribbled :
    ∃ (fd : Descriptor) (s : Socket),
      (dribbledDialer.proxiedDial 10 dribbledContext ⟨.of 10 0 0 1, 1080⟩).1 = .ok fd ∧
      s.received = [5, 0, 5, 0, 0, 3, 1, 97, 0, 80] ∧ Script.Delivers .closed s.reading [104] := by
  have hrequest : Socks.connectRequest dribbledContext.target dribbledContext.endpoint.port =
      .ok [5, 1, 0, 3, 1, 98, 0, 80] := rfl
  have hlength : ([97, 0, 80] : List UInt8).length = (1 : UInt8).toNat + 2 := rfl
  have hreply : Socks.AcceptedReply [5, 0, 5, 0, 0, 3, 1, 97, 0, 80] := .domain 0 1 hlength
  obtain ⟨-, haccepted, -⟩ := proxiedDial_by_reply dribbledDialer 10 dribbledContext
    ⟨.of 10 0 0 1, 1080⟩ hrequest rfl rfl takes_dribblingProxy delivers_dribblingProxy
  obtain ⟨fd, s, hfd, -, hreceived, hdelivers, -⟩ := haccepted _ [104] hreply rfl
  exact ⟨fd, s, hfd, hreceived, hdelivers⟩

end Dialer

end Egress
