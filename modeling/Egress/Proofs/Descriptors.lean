import Egress.Network.Basic

/-!
What opening, connecting and closing leave as it was. A new socket stands behind all others under a
descriptor of its own, whatever is done to that descriptor changes this socket only, and closing it
gives the open descriptors back as they were.
-/

namespace Egress

namespace Socket

/-- `t` is `s` after it was to connect to these addresses. Nothing was sent or received. -/
structure Aimed (s t : Socket) (addresses : List SocketAddr) : Prop where
  kind : t.kind = s.kind
  nonblocking : t.nonblocking = s.nonblocking
  targets : t.targets = s.targets ++ addresses
  sent : t.sent = s.sent
  received : t.received = s.received

theorem Aimed.trans {s t u : Socket} {as bs : List SocketAddr} (hst : s.Aimed t as)
    (htu : t.Aimed u bs) : s.Aimed u (as ++ bs) where
  kind := htu.kind.trans hst.kind
  nonblocking := htu.nonblocking.trans hst.nonblocking
  targets := by rw [htu.targets, hst.targets, List.append_assoc]
  sent := htu.sent.trans hst.sent
  received := htu.received.trans hst.received

theorem aimed_tryConnect (s : Socket) (peers : List Peer) (target : SocketAddr) :
    s.Aimed (s.tryConnect peers target).2 [target] := by
  unfold tryConnect
  split <;> exact ⟨rfl, rfl, rfl, rfl, rfl⟩

theorem aimed_awaitWritable (s : Socket) (ceiling : Nat) :
    s.Aimed (s.awaitWritable ceiling).2 [] := by
  unfold awaitWritable
  split <;> exact ⟨rfl, rfl, (List.append_nil _).symm, rfl, rfl⟩

theorem aimed_connect (s : Socket) (peers : List Peer) (ceiling : Nat) (target : SocketAddr) :
    s.Aimed (s.connect peers ceiling target).2 [target] := by
  have htry := aimed_tryConnect s peers target
  unfold connect
  split
  · rename_i hcall
    rwa [hcall] at htry
  · rename_i code t hcall
    rw [hcall] at htry
    have hwait := htry.trans (aimed_awaitWritable t ceiling)
    split
    · split <;> rename_i hu <;> rwa [hu] at hwait
    · exact htry

/-- The socket is connected to this peer, whose scripts stand at their start. -/
structure At (s : Socket) (peer : Peer) : Prop where
  connecting : s.connecting = none
  writing : s.writing = peer.send
  reading : s.reading = peer.receive

/-- The socket is connected, to the peer of the only address it was to connect to. -/
structure Joined (s : Socket) (peers : List Peer) : Prop where
  connecting : s.connecting = none
  target : ∃ peer ∈ peers, s.targets = [peer.address]

theorem Aimed.joined {s t : Socket} {target : SocketAddr} {peers : List Peer} {peer : Peer}
    (h : s.Aimed t [target]) (hs : s.targets = [])
    (hpeer : peers.find? (·.address == target) = some peer) (hat : t.At peer) :
    t.Joined peers where
  connecting := hat.connecting
  target := by
    have haddress : peer.address = target := by simpa using List.find?_some hpeer
    refine ⟨peer, List.mem_of_find?_eq_some hpeer, ?_⟩
    rw [h.targets, hs, haddress]
    rfl

theorem awaitWritable_ok {s t : Socket} {ceiling : Nat}
    (h : s.awaitWritable ceiling = (.ok (), t)) (hc : s.connecting ≠ none) :
    t.connecting = none ∧ t.writing = s.writing ∧ t.reading = s.reading := by
  unfold awaitWritable at h
  split at h
  · contradiction
  · obtain ⟨hwait, rfl⟩ := Prod.mk.inj h
    rw [hwait]
    exact ⟨rfl, rfl, rfl⟩

theorem at_of_connect {s t : Socket} {peers : List Peer} {ceiling : Nat} {target : SocketAddr}
    (h : s.connect peers ceiling target = (.ok (), t)) :
    ∃ peer, peers.find? (·.address == target) = some peer ∧ t.At peer := by
  unfold connect tryConnect at h
  cases hpeer : peers.find? (·.address == target) with
  | none =>
      have hfails : Errno.leavesConnecting Errno.connectionRefused = false := rfl
      simp only [hpeer, hfails, Bool.false_eq_true, if_false] at h
      cases h
  | some peer =>
      refine ⟨peer, rfl, ?_⟩
      simp only [hpeer] at h
      cases houtcome : peer.connect.connect.1 with
      | ok _ =>
          simp only [houtcome] at h
          obtain ⟨-, rfl⟩ := Prod.mk.inj h
          exact ⟨rfl, rfl, rfl⟩
      | error code =>
          simp only [houtcome] at h
          by_cases hcode : Errno.leavesConnecting code = true
          · simp only [if_pos hcode] at h
            split at h
            · rename_i hwait
              obtain ⟨-, rfl⟩ := Prod.mk.inj h
              obtain ⟨hc, hw, hr⟩ := awaitWritable_ok hwait (by simp)
              exact ⟨hc, hw, hr⟩
            · cases h
          · simp only [if_neg hcode] at h
            cases h

end Socket

namespace Network

/-- `m` is `n` with one more socket, open under a descriptor of its own. -/
structure Opened (n m : Network) (fd : Descriptor) (s : Socket) : Prop where
  number : fd = 1000 + n.sockets.length
  sockets : m.sockets = n.sockets ++ [s]
  descriptors : m.descriptors = n.descriptors ++ [(fd, n.sockets.length)]
  peers : m.peers = n.peers
  faults : m.faults = n.faults

/-- `m` is `n` after these sockets were opened and closed again. -/
structure Left (n m : Network) (gone : List Socket) : Prop where
  sockets : m.sockets = n.sockets ++ gone
  descriptors : m.descriptors = n.descriptors
  peers : m.peers = n.peers
  faults : m.faults = n.faults

theorem Left.refl (n : Network) : n.Left n [] :=
  ⟨(List.append_nil _).symm, rfl, rfl, rfl⟩

theorem Left.trans {n m k : Network} {as bs : List Socket} (hnm : n.Left m as) (hmk : m.Left k bs) :
    n.Left k (as ++ bs) where
  sockets := by rw [hmk.sockets, hnm.sockets, List.append_assoc]
  descriptors := hmk.descriptors.trans hnm.descriptors
  peers := hmk.peers.trans hnm.peers
  faults := hmk.faults.trans hnm.faults

theorem Left.socketOf? {n m : Network} {gone : List Socket} (h : n.Left m gone)
    (fd : Descriptor) : m.socketOf? fd = n.socketOf? fd := by
  rw [Network.socketOf?, h.descriptors, Network.socketOf?]

theorem Left.references {n m : Network} {gone : List Socket} (h : n.Left m gone) (place : Nat) :
    m.references place = n.references place := by
  rw [Network.references, h.descriptors, Network.references]

/-- Every descriptor leads to what it led to before. -/
theorem Left.socketAt? {n m : Network} {gone : List Socket} (h : n.Left m gone)
    (fd : Descriptor) : m.socketAt? fd = n.socketAt? fd := by
  have hplace := h.socketOf? fd
  cases hn : n.socketOf? fd with
  | none => simp [Network.socketAt?, hplace, hn]
  | some place =>
      have hlt := n.place_lt_of_socketOf? hn
      simp [Network.socketAt?, hplace, hn, h.sockets, List.getElem?_append_left hlt]

theorem isNonblocking_ok {n : Network} {fd : Descriptor} {flag : Bool}
    (h : n.isNonblocking fd = .ok flag) :
    n.faults.getFlag = none ∧ ∃ s, n.socketAt? fd = some s ∧ s.nonblocking = flag := by
  unfold isNonblocking at h
  split at h
  · contradiction
  · rename_i hget
    split at h
    · rename_i s hs
      exact ⟨hget, s, hs, Except.ok.inj h⟩
    · contradiction

/-- Where no fault is in the way a flag gets the value it is to have. -/
theorem setNonblocking_of_faultless {n : Network} {fd : Descriptor} {place : Nat} {s : Socket}
    (hplace : n.socketOf? fd = some place) (hs : n.sockets[place]? = some s)
    (hget : n.faults.getFlag = none) {flag : Bool}
    (hset : s.nonblocking = flag ∨ n.faults.setFlag = none) :
    n.setNonblocking fd flag = (.ok (), n.setSocket place { s with nonblocking := flag }) := by
  have hread : n.isNonblocking fd = .ok s.nonblocking := by
    simp [isNonblocking, hget, socketAt?, hplace, hs]
  by_cases hflag : s.nonblocking = flag
  · subst hflag
    have hsame : n.sockets.set place s = n.sockets := by
      obtain ⟨hlt, rfl⟩ := List.getElem?_eq_some_iff.1 hs
      exact List.set_getElem_self hlt
    simp only [setNonblocking, hread, if_true, setSocket, hsame]
  · simp only [setNonblocking, hread, if_neg hflag, hset.resolve_left hflag, onSocket, hplace, hs]

/-- A flag that has to change cannot be written if one of the calls this takes fails. -/
theorem setNonblocking_of_fault {n : Network} {fd : Descriptor} {s : Socket}
    (hs : n.socketAt? fd = some s) {flag : Bool} (hflag : s.nonblocking ≠ flag) {errno : Nat}
    (hfault : n.faults.getFlag.or n.faults.setFlag = some errno) :
    n.setNonblocking fd flag = (.error (.numbered errno), n) := by
  cases hget : n.faults.getFlag with
  | some code =>
      rw [hget, Option.some_or, Option.some.injEq] at hfault
      simp only [setNonblocking, isNonblocking, hget, hfault]
  | none =>
      rw [hget, Option.none_or] at hfault
      simp only [setNonblocking, isNonblocking, hget, hs, if_neg hflag, hfault]

/-- The flag of a descriptor that is not open cannot be written. -/
theorem setNonblocking_of_closed {n : Network} {fd : Descriptor} (h : n.socketOf? fd = none)
    (flag : Bool) : ∃ e, n.setNonblocking fd flag = (.error e, n) := by
  have hnone : n.socketAt? fd = none := by simp [socketAt?, h]
  obtain ⟨e, hread⟩ : ∃ e, n.isNonblocking fd = .error e := by
    unfold isNonblocking
    rw [hnone]
    split <;> exact ⟨_, rfl⟩
  exact ⟨e, by simp only [setNonblocking, hread]⟩

theorem opened_add (n : Network) (s : Socket) : n.Opened (n.add s).2 (n.add s).1 s :=
  ⟨rfl, rfl, rfl, rfl, rfl⟩

theorem ne_of_mem_descriptors {n : Network} {p : Descriptor × Nat} (hp : p ∈ n.descriptors) :
    p.1 ≠ 1000 + n.sockets.length :=
  Int.ne_of_lt (n.number_lt p hp)

namespace Opened

variable {n m : Network} {fd : Descriptor} {s : Socket}

theorem socketOf? (h : n.Opened m fd s) : m.socketOf? fd = some n.sockets.length := by
  have hfresh : n.descriptors.lookup fd = none := by
    rw [List.lookup_eq_none_iff]
    intro p hp
    rw [h.number]
    simpa using (ne_of_mem_descriptors hp).symm
  rw [Network.socketOf?, h.descriptors, List.lookup_append, hfresh]
  simp

theorem getElem? (h : n.Opened m fd s) : m.sockets[n.sockets.length]? = some s := by
  simp [h.sockets]

theorem socketAt? (h : n.Opened m fd s) : m.socketAt? fd = some s := by
  simp [Network.socketAt?, h.socketOf?, h.getElem?]

/-- Descriptors that were open lead to what they led to before. -/
theorem socketAt?_of_some (h : n.Opened m fd s) {held : Descriptor} {t : Socket}
    (ht : n.socketAt? held = some t) : m.socketAt? held = some t := by
  obtain ⟨place, hplace, ht⟩ := Option.bind_eq_some_iff.1 ht
  have hlt := n.place_lt_of_socketOf? hplace
  have hlookup : m.socketOf? held = some place := by
    rw [Network.socketOf?] at hplace ⊢
    rw [h.descriptors, List.lookup_append, hplace, Option.some_or]
  simpa [Network.socketAt?, hlookup, h.sockets, List.getElem?_append_left hlt] using ht

theorem onSocket {α : Type} (h : n.Opened m fd s)
    (act : Socket → Except RouteError α × Socket) :
    (m.onSocket fd act).1 = (act s).1 ∧ n.Opened (m.onSocket fd act).2 fd (act s).2 := by
  have hrun : m.onSocket fd act = ((act s).1, m.setSocket n.sockets.length (act s).2) := by
    simp only [Network.onSocket, h.socketOf?, h.getElem?]
  rw [hrun]
  refine ⟨rfl, h.number, ?_, h.descriptors, h.peers, h.faults⟩
  simp [setSocket, h.sockets]

theorem setNonblocking (h : n.Opened m fd s) (hget : n.faults.getFlag = none)
    (hset : n.faults.setFlag = none) (flag : Bool) :
    ∃ k, m.setNonblocking fd flag = (.ok (), k) ∧ n.Opened k fd { s with nonblocking := flag } :=
  ⟨_, setNonblocking_of_faultless h.socketOf? h.getElem? (h.faults ▸ hget)
      (.inr (h.faults ▸ hset)),
    h.number, by simp [setSocket, h.sockets], h.descriptors, h.peers, h.faults⟩

theorem close (h : n.Opened m fd s) : n.Left (m.close fd) [s] := by
  refine ⟨h.sockets, ?_, h.peers, h.faults⟩
  have hkept : n.descriptors.filter (·.1 != fd) = n.descriptors := by
    rw [List.filter_eq_self]
    intro p hp
    rw [h.number]
    simpa using ne_of_mem_descriptors hp
  simp [Network.close, h.descriptors, hkept]

theorem handOver (h : n.Opened m fd s) (hget : n.faults.getFlag = none)
    (hset : n.faults.setFlag = none) :
    ∃ k, m.handOver fd = (.ok fd, k) ∧ n.Opened k fd { s with nonblocking := false } := by
  obtain ⟨k, hrun, hk⟩ := h.setNonblocking hget hset false
  exact ⟨k, by simp only [Network.handOver, hrun], hk⟩

end Opened

/-- The number of the fault that keeps a stream from being opened, if one does. -/
def openFault? (n : Network) : Option Nat :=
  n.faults.socket.or (n.faults.getFlag.or n.faults.setFlag)

/-- An attempt at an address: the socket it makes, if it gets that far, and how it ends. -/
structure Attempt where
  socket : Option Socket
  outcome : Except RouteError Unit

/-- How opening a socket and connecting it to an address goes with the peers and the faults of a
network, whatever else is open in it. -/
def attempt (n : Network) (ceiling : Nat) (target : SocketAddr) : Attempt :=
  match n.openFault? with
  | some errno => ⟨if n.faults.socket.isSome then none else some {}, .error (.ofErrno errno)⟩
  | none =>
      let connected := ({ nonblocking := true } : Socket).connect n.peers ceiling target
      ⟨some connected.2, connected.1⟩

theorem openStream_of_fault {n : Network} {errno : Nat} (h : n.openFault? = some errno) :
    ∃ m, n.openStream = (.error (.numbered errno), m) ∧
      n.Left m (if n.faults.socket.isSome then none else some {}).toList := by
  cases hsocket : n.faults.socket with
  | some code =>
      rw [openFault?, hsocket, Option.some_or, Option.some.injEq] at h
      exact ⟨n, by simp only [openStream, hsocket, h], .refl n⟩
  | none =>
      rw [openFault?, hsocket, Option.none_or] at h
      have hclosed : ({} : Socket).nonblocking ≠ true := Bool.false_ne_true
      have hrun := setNonblocking_of_fault (n.opened_add {}).socketAt? hclosed h
      exact ⟨_, by simp only [openStream, hsocket, hrun], (n.opened_add {}).close⟩

theorem openStream_of_faultless {n : Network} (h : n.openFault? = none) :
    n.faults.getFlag = none ∧ n.faults.setFlag = none ∧ ∃ fd m,
      n.openStream = (.ok fd, m) ∧ n.Opened m fd { nonblocking := true } := by
  obtain ⟨hsocket, hflags⟩ := Option.or_eq_none_iff.1 h
  obtain ⟨hget, hset⟩ := Option.or_eq_none_iff.1 hflags
  obtain ⟨m, hrun, hm⟩ := (n.opened_add {}).setNonblocking hget hset true
  exact ⟨hget, hset, _, m, by simp only [openStream, hsocket, hrun], hm⟩

/-- Dialing is one attempt, and the socket it makes is closed again unless it is connected. -/
theorem dial_attempts (n : Network) (ceiling : Nat) (target : SocketAddr) :
    (∃ e m, (n.attempt ceiling target).outcome = .error e ∧
      n.dial ceiling target = (.error e, m) ∧
      n.Left m (n.attempt ceiling target).socket.toList) ∨
    ∃ fd m s, (n.attempt ceiling target).outcome = .ok () ∧
      (n.attempt ceiling target).socket = some s ∧
      n.dial ceiling target = (.ok fd, m) ∧ n.Opened m fd s := by
  cases hfault : n.openFault? with
  | some errno =>
      obtain ⟨m, hopen, hm⟩ := openStream_of_fault hfault
      simp only [attempt, hfault]
      exact .inl ⟨_, m, rfl, by simp only [dial, hopen, RouteError.ofErrno], hm⟩
  | none =>
      obtain ⟨-, -, fd, k, hopen, hk⟩ := openStream_of_faultless hfault
      obtain ⟨hanswer, hm⟩ := hk.onSocket (·.connect n.peers ceiling target)
      simp only [attempt, hfault]
      cases hact : k.onSocket fd (·.connect n.peers ceiling target) with
      | mk answer m =>
          rw [hact] at hanswer hm
          rw [← hanswer]
          cases answer with
          | ok _ => exact .inr ⟨fd, m, _, rfl, rfl, by simp only [dial, hopen, hk.peers, hact], hm⟩
          | error e =>
              exact .inl ⟨e, m.close fd, rfl, by simp only [dial, hopen, hk.peers, hact], hm.close⟩

/-- Dialing connects a new socket and closes it again if that fails, or fails before there is one to
connect. -/
theorem dial_connects (n : Network) (ceiling : Nat) (target : SocketAddr) :
    (∃ e m gone, n.dial ceiling target = (.error e, m) ∧ n.Left m gone ∧ gone.length ≤ 1 ∧
      ∀ s ∈ gone, s = {}) ∨
    (n.faults.getFlag = none ∧ n.faults.setFlag = none ∧ ∃ outcome s,
      ({ nonblocking := true } : Socket).connect n.peers ceiling target = (outcome, s) ∧
      ((∃ fd m, outcome = .ok () ∧ n.dial ceiling target = (.ok fd, m) ∧ n.Opened m fd s) ∨
        ∃ e m, outcome = .error e ∧ n.dial ceiling target = (.error e, m) ∧ n.Left m [s])) := by
  have hdial := n.dial_attempts ceiling target
  cases hfault : n.openFault? with
  | some errno =>
      obtain ⟨m, hopen, hm⟩ := openStream_of_fault hfault
      refine .inl ⟨.ofErrno errno, m, _, by simp only [dial, hopen, RouteError.ofErrno], hm, ?_,
        fun s hs => ?_⟩
      · split <;> simp
      · split at hs <;> simp_all
  | none =>
      obtain ⟨hget, hset, -⟩ := openStream_of_faultless hfault
      simp only [attempt, hfault] at hdial
      refine .inr ⟨hget, hset, _, _, rfl, ?_⟩
      rcases hdial with ⟨e, m, houtcome, hrun, hm⟩ | ⟨fd, m, s, houtcome, hsocket, hrun, hm⟩
      · exact .inr ⟨e, m, houtcome, hrun, hm⟩
      · exact .inl ⟨fd, m, houtcome, hrun, Option.some.inj hsocket ▸ hm⟩

/-- Dialing gives a new socket that is connected to the target's peer, or fails and leaves at most a
closed one. -/
theorem dial_cases (n : Network) (ceiling : Nat) (target : SocketAddr) :
    (n.faults.getFlag = none ∧ n.faults.setFlag = none ∧ ∃ fd m s peer,
      n.dial ceiling target = (.ok fd, m) ∧ n.Opened m fd s ∧
      ({ nonblocking := true } : Socket).Aimed s [target] ∧
      n.peers.find? (·.address == target) = some peer ∧ s.At peer) ∨
    ∃ e m gone, n.dial ceiling target = (.error e, m) ∧ n.Left m gone ∧ gone.length ≤ 1 ∧
      ∀ s ∈ gone, s.targets ⊆ [target] ∧ s.sent = [] ∧ s.received = [] := by
  rcases n.dial_connects ceiling target with
    ⟨e, m, gone, hdial, hm, hlength, hgone⟩ | ⟨hget, hset, outcome, s, hconnect, hcases⟩
  · refine .inr ⟨e, m, gone, hdial, hm, hlength, fun s hs => ?_⟩
    obtain rfl := hgone s hs
    simp
  · have haimed := Socket.aimed_connect { nonblocking := true } n.peers ceiling target
    rw [hconnect] at haimed
    rcases hcases with ⟨fd, m, rfl, hdial, hm⟩ | ⟨e, m, rfl, hdial, hm⟩
    · obtain ⟨peer, hpeer, hat⟩ := Socket.at_of_connect hconnect
      exact .inl ⟨hget, hset, fd, m, s, peer, hdial, hm, haimed, hpeer, hat⟩
    · refine .inr ⟨e, m, [s], hdial, hm, by simp, fun t ht => ?_⟩
      obtain rfl := List.mem_singleton.1 ht
      rw [haimed.targets, haimed.sent, haimed.received]
      simp

end Network

end Egress
