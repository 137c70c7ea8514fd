import Egress.Dial
import Egress.Proofs.Descriptors
import Egress.Proofs.Negotiation

/-!
What dialing does to the network and the resolver. A direct dial opens sockets to candidates only, a
proxied dial at most one, to the proxy, on which nothing but the greeting and the request is sent.
Sockets that were there before are not touched.
-/

namespace Egress

namespace Network

/-- How a dial ends that opened these sockets: all of them are closed again, or the last one is
connected and open under the descriptor that is handed over, with this non-blocking flag. -/
inductive Dialed {ε : Type} (n m : Network) (flag : Bool) :
    List Socket → Except ε Descriptor → Prop
  | failed {gone : List Socket} {e : ε} (left : n.Left m gone) : Dialed n m flag gone (.error e)
  | handed {k : Network} {gone : List Socket} {fd : Descriptor} {s : Socket} (left : n.Left k gone)
      (opened : k.Opened m fd s) (joined : s.Joined n.peers) (nonblocking : s.nonblocking = flag)
      (getFlag : n.faults.getFlag = none) (setFlag : n.faults.setFlag = none) :
      Dialed n m flag (gone ++ [s]) (.ok fd)

namespace Dialed

variable {ε : Type} {n m k : Network} {flag : Bool} {opened gone : List Socket}
  {outcome : Except ε Descriptor}

theorem sockets (h : n.Dialed m flag opened outcome) : m.sockets = n.sockets ++ opened := by
  cases h with
  | failed left => exact left.sockets
  | handed left opened => rw [opened.sockets, left.sockets, List.append_assoc]

theorem after (h : k.Dialed m flag opened outcome) (hgone : n.Left k gone) :
    n.Dialed m flag (gone ++ opened) outcome := by
  cases h with
  | failed left => exact .failed (hgone.trans left)
  | handed left opened joined nonblocking getFlag setFlag =>
      rw [← List.append_assoc]
      exact .handed (hgone.trans left) opened (hgone.peers ▸ joined) nonblocking
        (hgone.faults ▸ getFlag) (hgone.faults ▸ setFlag)

end Dialed

theorem dialed_dial (n : Network) (ceiling : Nat) (target : SocketAddr) :
    ∃ opened, n.Dialed (n.dial ceiling target).2 true opened (n.dial ceiling target).1 ∧
      ∀ s ∈ opened, s.targets ⊆ [target] := by
  rcases n.dial_cases ceiling target with
    ⟨hget, hset, fd, m, s, peer, hdial, hm, haimed, hpeer, hat⟩ | ⟨e, m, gone, hdial, hm, -, hgone⟩
  · rw [hdial]
    refine ⟨[] ++ [s], .handed (.refl n) hm (haimed.joined rfl hpeer hat) haimed.nonblocking hget
      hset, fun t ht => ?_⟩
    obtain rfl := List.mem_singleton.1 ht
    rw [haimed.targets]
    exact List.Subset.refl _
  · rw [hdial]
    exact ⟨gone, .failed hm, fun t ht => (hgone t ht).1⟩

end Network

namespace Dialer

variable {ρ : Type}

theorem proxiedDial_of_connected {d : Dialer ρ} {ceiling : Nat} {c : DialContext}
    {proxy : SocketAddr4} {request : List UInt8} {fd : Descriptor} {m : Network} {s : Socket}
    (hrequest : Socks.connectRequest c.target c.endpoint.port = .ok request)
    (hdial : d.network.dial ceiling (.v4 proxy) = (.ok fd, m)) (hm : d.network.Opened m fd s)
    (hget : d.network.faults.getFlag = none) (hset : d.network.faults.setFlag = none) :
    ((negotiate ceiling request s).1 = .ok () ∧
      (d.proxiedDial ceiling c proxy).1 = .ok fd ∧
      d.network.Opened (d.proxiedDial ceiling c proxy).2.network fd
        { (negotiate ceiling request s).2 with nonblocking := false }) ∨
    ∃ e, (negotiate ceiling request s).1 = .error e ∧
      (d.proxiedDial ceiling c proxy).1 = .error e ∧
      d.network.Left (d.proxiedDial ceiling c proxy).2.network
        [(negotiate ceiling request s).2] := by
  obtain ⟨hanswer, hk⟩ := hm.onSocket (negotiate ceiling request)
  cases hact : m.onSocket fd (negotiate ceiling request) with
  | mk answer k =>
      rw [hact] at hanswer hk
      cases answer with
      | ok _ =>
          obtain ⟨l, hover, hl⟩ := hk.handOver hget hset
          refine .inl ⟨hanswer.symm, ?_⟩
          simp only [proxiedDial, tunnel, hrequest, hdial, hact, finish, hover]
          exact ⟨rfl, hl⟩
      | error e =>
          refine .inr ⟨e, hanswer.symm, ?_⟩
          simp only [proxiedDial, tunnel, hrequest, hdial, hact, complain]
          exact ⟨trivial, hk.close⟩

theorem finish_of_opened {d : Dialer ρ} {n : Network} {fd : Descriptor} {s : Socket}
    (hs : n.Opened d.network fd s) (hget : n.faults.getFlag = none)
    (hset : n.faults.setFlag = none) (message : String) :
    (d.finish fd message).1 = .ok fd ∧ (d.finish fd message).2.resolver = d.resolver ∧
      n.Opened (d.finish fd message).2.network fd { s with nonblocking := false } := by
  obtain ⟨k, hover, hk⟩ := hs.handOver hget hset
  simp only [finish, hover]
  exact ⟨rfl, trivial, hk⟩

theorem resolver_proxiedDial (d : Dialer ρ) (ceiling : Nat) (c : DialContext)
    (proxy : SocketAddr4) : (d.proxiedDial ceiling c proxy).2.resolver = d.resolver := by
  have htunnel : (d.tunnel ceiling c proxy).2.resolver = d.resolver := by
    unfold tunnel
    split
    · rfl
    · split
      · rfl
      · simp only
        split <;> rfl
  simp only [proxiedDial]
  split <;> rename_i hrun <;> rw [hrun] at htunnel <;> exact htunnel

/-- A target that cannot be asked for is refused before anything is opened. -/
theorem proxiedDial_of_refused {d : Dialer ρ} {c : DialContext} {fault : Socks.ProtocolFault}
    (h : Socks.connectRequest c.target c.endpoint.port = .error fault) (ceiling : Nat)
    (proxy : SocketAddr4) :
    (d.proxiedDial ceiling c proxy).1 = .error (.proxyProtocol fault) ∧
      (d.proxiedDial ceiling c proxy).2.network = d.network := by
  simp only [proxiedDial, tunnel, h, complain]
  exact ⟨trivial, trivial⟩

/-- A proxied dial opens at most one socket, to the proxy, and sends an initial part of the greeting
and the request on it. -/
theorem proxiedDial_dials (d : Dialer ρ) (ceiling : Nat) (c : DialContext) (proxy : SocketAddr4)
    {request : List UInt8}
    (hrequest : Socks.connectRequest c.target c.endpoint.port = .ok request) :
    ∃ opened, d.network.Dialed (d.proxiedDial ceiling c proxy).2.network false opened
        (d.proxiedDial ceiling c proxy).1 ∧
      opened.length ≤ 1 ∧
      ∀ s ∈ opened, s.targets ⊆ [.v4 proxy] ∧ s.sent <+: Socks.greeting ++ request := by
  rcases d.network.dial_cases ceiling (.v4 proxy) with
    ⟨hget, hset, fd, m, s, peer, hdial, hm, haimed, hpeer, hat⟩ |
    ⟨e, m, gone, hdial, hm, hlength, hgone⟩
  · obtain ⟨accepted, hprefix, hspoke, -⟩ := Conversation.sends_negotiate ceiling request s
    have hjoined := haimed.joined rfl hpeer hat
    have htargets : (negotiate ceiling request s).2.targets ⊆ [.v4 proxy] := by
      rw [hspoke.targets, haimed.targets]
      exact List.Subset.refl _
    have hsent : (negotiate ceiling request s).2.sent <+: Socks.greeting ++ request := by
      rw [hspoke.sent, haimed.sent]
      exact hprefix
    rcases proxiedDial_of_connected hrequest hdial hm hget hset with
      ⟨-, hok, hopened⟩ | ⟨e, -, hfail, hleft⟩
    · rw [hok]
      refine ⟨_, .handed (.refl _) hopened ⟨hspoke.connecting hjoined.connecting, ?_⟩ rfl hget hset,
        Nat.le_refl 1, fun t ht => ?_⟩
      · simpa only [hspoke.targets] using hjoined.target
      · obtain rfl := List.mem_singleton.1 ht
        exact ⟨htargets, hsent⟩
    · rw [hfail]
      refine ⟨_, .failed hleft, Nat.le_refl 1, fun t ht => ?_⟩
      obtain rfl := List.mem_singleton.1 ht
      exact ⟨htargets, hsent⟩
  · simp only [proxiedDial, tunnel, hrequest, hdial, complain]
    refine ⟨gone, .failed hm, hlength, fun t ht => ⟨(hgone t ht).1, ?_⟩⟩
    rw [(hgone t ht).2.1]
    exact List.nil_prefix

theorem proxiedDial_opens (d : Dialer ρ) (ceiling : Nat) (c : DialContext) (proxy : SocketAddr4)
    {request : List UInt8}
    (hrequest : Socks.connectRequest c.target c.endpoint.port = .ok request) :
    ∃ opened, (d.proxiedDial ceiling c proxy).2.network.sockets = d.network.sockets ++ opened ∧
      opened.length ≤ 1 ∧
      ∀ s ∈ opened, s.targets ⊆ [.v4 proxy] ∧ s.sent <+: Socks.greeting ++ request := by
  obtain ⟨opened, hdialed, hrest⟩ := d.proxiedDial_dials ceiling c proxy hrequest
  exact ⟨opened, hdialed.sockets, hrest⟩

/-- A name is all that a proxy is told of what stands behind it. -/
theorem proxiedDial_tells (d : Dialer ρ) (ceiling : Nat) {c : DialContext}
    {name : String} (hname : c.name = some name) (proxy : SocketAddr4) :
    ∃ opened, (d.proxiedDial ceiling c proxy).2.network.sockets = d.network.sockets ++ opened ∧
      opened.length ≤ 1 ∧
      ∀ socket ∈ opened, socket.targets ⊆ [.v4 proxy] ∧ ∃ request,
        Socks.connectRequest (.domain name) c.endpoint.port = .ok request ∧
        socket.sent <+: Socks.greeting ++ request := by
  have htold : c.target = .domain name := by simp only [DialContext.target, hname]
  cases hrequest : Socks.connectRequest (.domain name) c.endpoint.port with
  | error fault =>
      rw [← htold] at hrequest
      obtain ⟨-, hnothing⟩ := proxiedDial_of_refused (d := d) hrequest ceiling proxy
      rw [hnothing]
      exact ⟨[], (List.append_nil _).symm, Nat.zero_le 1, nofun⟩
  | ok request =>
      obtain ⟨opened, hopened, hone, hsent⟩ :=
        d.proxiedDial_opens ceiling c proxy (by rw [htold, hrequest])
      exact ⟨opened, hopened, hone, fun socket hs =>
        ⟨(hsent socket hs).1, request, rfl, (hsent socket hs).2⟩⟩

/-- Trying candidates opens sockets to candidates only. Of these only the last may stay open. -/
theorem walk_dials (ceiling : Nat) (label : String) (d : Dialer ρ) (last : Option RouteError)
    (candidates : List SocketAddr) :
    (walk ceiling label d last candidates).2.resolver = d.resolver ∧
    ∃ opened, d.network.Dialed (walk ceiling label d last candidates).2.network true opened
        (walk ceiling label d last candidates).1 ∧
      ∀ s ∈ opened, s.targets ⊆ candidates := by
  induction candidates generalizing d last with
  | nil => exact ⟨rfl, [], .failed (.refl _), by simp⟩
  | cons candidate others ih =>
      obtain ⟨opened, hdialed, htargets⟩ := d.network.dialed_dial ceiling candidate
      have hfirst : ∀ s ∈ opened, s.targets ⊆ candidate :: others :=
        fun s hs => List.Subset.trans (htargets s hs) (by simp)
      cases hdial : d.network.dial ceiling candidate with
      | mk outcome m =>
          rw [hdial] at hdialed
          cases outcome with
          | ok fd =>
              simp only [walk, hdial]
              cases hdialed with
              | handed left hopened joined nonblocking getFlag setFlag =>
                  exact ⟨trivial, _, .handed left hopened joined nonblocking getFlag setFlag,
                    hfirst⟩
          | error e =>
              -- A failed candidate leaves its socket closed, in front of those of the later ones.
              cases hdialed with
              | failed left =>
                  simp only [walk, hdial]
                  obtain ⟨hresolver, later, hlater, hothers⟩ := ih
                    { d with
                      journal := d.journal.breadcrumb Crumbs.dial
                        s!"direct candidate {candidate.text} for {label} failed: {e.message}"
                      network := m } (some e)
                  refine ⟨hresolver, opened ++ later, hlater.after left, fun s hs => ?_⟩
                  rcases List.mem_append.1 hs with hs | hs
                  · exact hfirst s hs
                  · exact List.Subset.trans (hothers s hs) (List.subset_cons_self _ _)

variable [Resolver ρ]

/-- A name is looked up once, and what is left of the answer leads out of the synthetic block. -/
theorem candidates_of_name (d : Dialer ρ) (table : SyntheticTable) {c : DialContext} {name : String}
    (hname : c.name = some name) :
    (d.candidates table c).2.resolver =
      (Resolver.resolve d.resolver d.now name c.endpoint.port).2 ∧
    (d.candidates table c).2.network = d.network ∧
    ∀ real, (d.candidates table c).1 = .ok real → ∃ found,
      (Resolver.resolve d.resolver d.now name c.endpoint.port).1 = .ok found ∧
        real = found.filter (isReal table) := by
  simp only [candidates, hname]
  cases hanswer : (Resolver.resolve d.resolver d.now name c.endpoint.port).1 with
  | error e => exact ⟨rfl, rfl, fun real hreal => by cases hreal⟩
  | ok found =>
      simp only
      split
      · exact ⟨rfl, rfl, fun real hreal => by cases hreal⟩
      · exact ⟨rfl, rfl, fun real hreal => ⟨found, rfl, (Except.ok.inj hreal).symm⟩⟩

theorem directDial_of_candidates {d d' : Dialer ρ} {table : SyntheticTable} {c : DialContext}
    {real : List SocketAddr} (h : d.candidates table c = (.ok real, d')) (ceiling : Nat) :
    (d.directDial table ceiling c).2.resolver = d'.resolver ∧
    ∃ opened, d'.network.Dialed (d.directDial table ceiling c).2.network false opened
        (d.directDial table ceiling c).1 ∧
      ∀ s ∈ opened, s.targets ⊆ real := by
  obtain ⟨hresolver, opened, hdialed, htargets⟩ := walk_dials ceiling c.label d' none real
  cases hrun : d'.walk ceiling c.label none real with
  | mk outcome e =>
      rw [hrun] at hresolver hdialed
      simp only [directDial, h, hrun]
      cases hdialed with
      | failed left => exact ⟨hresolver, opened, .failed left, htargets⟩
      | handed left hopened joined nonblocking getFlag setFlag =>
          rename_i k gone fd s
          obtain ⟨hok, hfinish, hover⟩ := finish_of_opened hopened (left.faults ▸ getFlag)
            (left.faults ▸ setFlag) s!"direct connect: {c.label}...ok"
          rw [hok]
          refine ⟨hfinish.trans hresolver, _, .handed left hover ⟨joined.connecting, joined.target⟩
            rfl getFlag setFlag, fun t ht => ?_⟩
          rcases List.mem_append.1 ht with ht | ht
          · exact htargets t (List.mem_append_left _ ht)
          · obtain rfl := List.mem_singleton.1 ht
            exact htargets s (List.mem_append_right _ (List.mem_singleton_self s))

/-- The resolver is asked once, for the name of the target, and nothing but its answer is connected
to, without the addresses that stand in the synthetic block as they are written. -/
theorem directDial_of_name (d : Dialer ρ) (table : SyntheticTable) (ceiling : Nat) {c : DialContext}
    {name : String} (hname : c.name = some name) :
    (d.directDial table ceiling c).2.resolver =
      (Resolver.resolve d.resolver d.now name c.endpoint.port).2 ∧
    ∃ opened, d.network.Dialed (d.directDial table ceiling c).2.network false opened
        (d.directDial table ceiling c).1 ∧
      ∀ s ∈ opened, ∀ target ∈ s.targets, isReal table target = true ∧ ∃ found,
        (Resolver.resolve d.resolver d.now name c.endpoint.port).1 = .ok found ∧
          target ∈ found := by
  obtain ⟨hresolver, hnetwork, hreal⟩ := d.candidates_of_name table hname
  cases hcandidates : d.candidates table c with
  | mk answer d' =>
      rw [hcandidates] at hresolver hnetwork hreal
      cases answer with
      | error e =>
          simp only [directDial, hcandidates]
          refine ⟨hresolver, [], .failed ?_, by simp⟩
          rw [hnetwork]
          exact .refl _
      | ok real =>
          obtain ⟨found, hfound, rfl⟩ := hreal real rfl
          obtain ⟨hsame, opened, hdialed, htargets⟩ := directDial_of_candidates hcandidates ceiling
          rw [hnetwork] at hdialed
          refine ⟨hsame.trans hresolver, opened, hdialed, fun s hs target htarget => ?_⟩
          obtain ⟨hmem, hreal⟩ := List.mem_filter.1 (htargets s hs htarget)
          exact ⟨hreal, found, hfound, hmem⟩

theorem directDial_of_unnamed (d : Dialer ρ) (table : SyntheticTable) (ceiling : Nat)
    {c : DialContext} (hname : c.name = none) :
    ∃ opened, d.network.Dialed (d.directDial table ceiling c).2.network false opened
        (d.directDial table ceiling c).1 ∧
      ∀ s ∈ opened, s.targets ⊆ [c.endpoint.socketAddr] := by
  have hcandidates : d.candidates table c = (.ok [c.endpoint.socketAddr], d) := by
    simp only [candidates, hname]
  exact (directDial_of_candidates hcandidates ceiling).2

theorem directDial_opens (d : Dialer ρ) (table : SyntheticTable) (ceiling : Nat) {c : DialContext}
    {name : String} (hname : c.name = some name) :
    (d.directDial table ceiling c).2.resolver =
      (Resolver.resolve d.resolver d.now name c.endpoint.port).2 ∧
    ∃ opened, (d.directDial table ceiling c).2.network.sockets = d.network.sockets ++ opened ∧
      ∀ s ∈ opened, ∀ target ∈ s.targets, ∃ found,
        (Resolver.resolve d.resolver d.now name c.endpoint.port).1 = .ok found ∧
          target ∈ found := by
  obtain ⟨hresolver, opened, hdialed, htargets⟩ := d.directDial_of_name table ceiling hname
  exact ⟨hresolver, opened, hdialed.sockets, fun s hs target ht => (htargets s hs target ht).2⟩

/-- Whatever is dialed in whatever way, a dial ends as dials do. -/
theorem establish_dials (d : Dialer ρ) (table : SyntheticTable) (ceiling : Nat) (e : Endpoint)
    (decision : Decision) :
    ∃ opened, d.network.Dialed (d.establish table ceiling e decision).2.network false opened
      (d.establish table ceiling e decision).1 := by
  simp only [establish]
  cases DialContext.of table e decision with
  | error fault => exact ⟨[], .failed (.refl _)⟩
  | ok c =>
      cases decision with
      | direct =>
          cases hname : c.name with
          | none =>
              obtain ⟨opened, hdialed, -⟩ := d.directDial_of_unnamed table ceiling hname
              exact ⟨opened, hdialed⟩
          | some name =>
              obtain ⟨-, opened, hdialed, -⟩ := d.directDial_of_name table ceiling hname
              exact ⟨opened, hdialed⟩
      | socks5 proxy =>
          cases hrequest : Socks.connectRequest c.target c.endpoint.port with
          | error fault =>
              obtain ⟨hrefused, hnetwork⟩ := proxiedDial_of_refused hrequest ceiling proxy
              refine ⟨[], ?_⟩
              change d.network.Dialed (d.proxiedDial ceiling c proxy).2.network false []
                (d.proxiedDial ceiling c proxy).1
              rw [hrefused, hnetwork]
              exact .failed (.refl _)
          | ok request =>
              obtain ⟨opened, hdialed, -⟩ := d.proxiedDial_dials ceiling c proxy hrequest
              exact ⟨opened, hdialed⟩

end Dialer

end Egress
