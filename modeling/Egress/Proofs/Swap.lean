import Egress.Proofs.NamedDial
import Egress.Proofs.Replacement

/-!
Connecting a descriptor of the caller's. It is all or nothing: the descriptor leads where it led
before, or to the new connection with the flag it had. Nothing else that was opened on the way stays
open.
-/

namespace Egress

namespace Network

theorem references_of_le (n : Network) {place : Nat} (h : n.sockets.length ≤ place) :
    n.references place = 0 := by
  rw [references, List.countP_eq_zero]
  intro p hp
  have := n.place_lt p hp
  simp only [beq_iff_eq]
  omega

end Network

namespace Session

variable {π ρ : Type} [PolicyEngine π] [Resolver ρ] (s : Session π ρ)

theorem dial_of_exempt {target : SocketAddr}
    (h : s.router.exemptions.coversEndpoint (.normalize target) = true) :
    s.dial target = (.ok none, s.countBypass) := by
  simp only [dial, route, h, if_true]

/-- An exempt target leaves the network alone. Any other is dialed and ends as dials do. -/
theorem dial_dials (target : SocketAddr) :
    ((s.dial target).1 = .ok none ∧ (s.dial target).2.world.network = s.world.network) ∨
    ∃ opened outcome, (s.dial target).1 = outcome.map some ∧
      s.world.network.Dialed (s.dial target).2.world.network false opened outcome := by
  cases hexempt : s.router.exemptions.coversEndpoint (.normalize target) with
  | true =>
      rw [s.dial_of_exempt hexempt]
      exact .inl ⟨rfl, rfl⟩
  | false =>
      obtain ⟨decision, t, hask⟩ : ∃ decision t,
        s.askEndpoint (.normalize target) = (decision, t) := ⟨_, _, rfl⟩
      have hnetwork : t.world.network = s.world.network := by
        have hframe := (s.askName_frame (DecisionCache.nameFor s.router.table (.normalize target))
          (Endpoint.normalize target).port).2.2.2.1
        rwa [← askEndpoint, hask] at hframe
      obtain ⟨opened, hdialed⟩ := t.world.toDialer.establish_dials t.router.table t.router.ceiling
        (.normalize target) decision
      obtain ⟨houtcome, hworld⟩ := t.dialAs_establishes (.normalize target) decision
      rw [hnetwork] at hdialed
      simp only [s.dial_eq_dialAs hexempt, hask, hworld]
      exact .inr ⟨opened, _, rfl, houtcome ▸ hdialed⟩

omit [PolicyEngine π] [Resolver ρ] in
theorem swap_cases {n : Network} {fd replacement : Descriptor} {held handed : Socket}
    (hheld : n.socketAt? fd = some held) (hopened : n.Opened s.world.network replacement handed)
    (hs : handed.nonblocking = false) (hget : n.faults.getFlag = none)
    (hset : n.faults.setFlag = none) :
    (∃ errno, n.faults.duplicate = some errno ∧
      (s.swap fd replacement).1 = .failed (.ofOs (.numbered errno)) ∧
      n.Left (s.swap fd replacement).2.world.network [handed]) ∨
    ((s.swap fd replacement).1 = (if held.nonblocking then .inProgress else .connected) ∧
      n.Replaced (s.swap fd replacement).2.world.network fd
        { handed with nonblocking := held.nonblocking }) := by
  rcases Network.replace_cases hheld hopened hs hget hset with
    ⟨errno, hfault, herror, hleft⟩ | ⟨hok, htaken⟩
  · refine .inl ⟨errno, hfault, ?_⟩
    cases hrun : s.world.network.replace fd replacement with
    | mk answer k =>
        rw [hrun] at herror hleft
        obtain rfl := herror
        simp only [swap, hrun]
        exact ⟨trivial, hleft⟩
  · refine .inr ?_
    cases hrun : s.world.network.replace fd replacement with
    | mk answer k =>
        rw [hrun] at hok htaken
        obtain rfl := hok
        simp only [swap, hrun]
        exact ⟨trivial, htaken⟩

/-- How a connect ends, and what it did to the network. -/
theorem connect_cases (fd : Descriptor) (target : SocketAddr) :
    (∃ gone, s.world.network.Left (s.connect fd target).2.world.network gone ∧
      ((s.connect fd target).1 = .passthrough ∧
          (s.world.network.isStream fd = false ∨ (s.dial target).1 = .ok none) ∨
        ∃ e, (s.connect fd target).1 = .failed e ∧ ((s.dial target).1 = .error e ∨
          ∃ replacement errno, (s.dial target).1 = .ok (some replacement) ∧
            s.world.network.faults.duplicate = some errno ∧ e = .ofOs (.numbered errno)))) ∨
    ∃ gone k held replacement handed,
      s.world.network.socketAt? fd = some held ∧
      (s.connect fd target).1 = (if held.nonblocking then .inProgress else .connected) ∧
      (s.dial target).1 = .ok (some replacement) ∧
      (s.dial target).2.world.network.socketAt? replacement = some handed ∧
      handed.Joined s.world.network.peers ∧
      s.world.network.Left k gone ∧
      k.Replaced (s.connect fd target).2.world.network fd
        { handed with nonblocking := held.nonblocking } := by
  cases hstream : s.world.network.isStream fd with
  | false =>
      simp only [connect, hstream, Bool.false_eq_true, if_false]
      exact .inl ⟨[], .refl _, .inl ⟨trivial, .inl trivial⟩⟩
  | true =>
      obtain ⟨held, hheld, -⟩ := (Option.any_eq_true _ _).1 hstream
      obtain ⟨outcome, t, hdial⟩ : ∃ outcome t, s.dial target = (outcome, t) := ⟨_, _, rfl⟩
      simp only [connect, hstream, if_true, hdial]
      rcases s.dial_dials target with ⟨hnone, hnetwork⟩ | ⟨opened, answer, hanswer, hdialed⟩
      · rw [hdial] at hnone hnetwork
        obtain rfl := hnone
        simp only at hnetwork ⊢
        rw [hnetwork]
        exact .inl ⟨[], .refl _, .inl ⟨trivial, .inr trivial⟩⟩
      · rw [hdial] at hanswer hdialed
        obtain rfl := hanswer
        cases hdialed with
        | failed left => exact .inl ⟨_, left, .inr ⟨_, rfl, .inl rfl⟩⟩
        | @handed k gone replacement handed left hopened joined nonblocking getFlag setFlag =>
            rcases t.swap_cases ((left.socketAt? fd).trans hheld) hopened nonblocking
              (left.faults ▸ getFlag) (left.faults ▸ setFlag) with
              ⟨errno, hfault, hverdict, hclosed⟩ | ⟨hverdict, htaken⟩
            · exact .inl ⟨_, left.trans hclosed, .inr ⟨_, hverdict, .inr
                ⟨replacement, errno, rfl, left.faults ▸ hfault, rfl⟩⟩⟩
            · exact .inr ⟨gone, k, held, replacement, handed, hheld, hverdict, rfl,
                hopened.socketAt?, joined, left, htaken⟩

omit [PolicyEngine π] [Resolver ρ] in
theorem swap_ne_passthrough (fd replacement : Descriptor) :
    (s.swap fd replacement).1 ≠ .passthrough := by
  unfold swap
  split
  · split <;> nofun
  · nofun

/-- A stream is left to its owner if and only if the target is exempt. -/
theorem connect_passthrough_iff {fd : Descriptor} (hstream : s.world.network.isStream fd = true)
    (target : SocketAddr) : (s.connect fd target).1 = .passthrough ↔
      s.router.exemptions.coversEndpoint (.normalize target) = true := by
  cases hexempt : s.router.exemptions.coversEndpoint (.normalize target) with
  | true => simp only [connect, hstream, s.dial_of_exempt hexempt, if_true]
  | false =>
      rw [iff_false_right Bool.false_ne_true]
      simp only [connect, hstream, s.dial_eq_dialAs hexempt, if_true]
      cases ((s.askEndpoint (.normalize target)).2.dialAs (.normalize target)
        (s.askEndpoint (.normalize target)).1).1 with
      | error e => exact fun h => ConnectVerdict.noConfusion h
      | ok replacement => exact swap_ne_passthrough _ fd replacement

/-- A connect is atomic on the caller's descriptor. Unless it connects, all descriptors lead where
they led before, and no socket of its own stays open. If it connects, the caller's descriptor is the
only one that leads to the new connection, with the flag it had, and no other one has changed. -/
theorem connect_atomic (fd : Descriptor) (target : SocketAddr) :
    let before := s.world.network
    let after := (s.connect fd target).2.world.network
    before.sockets <+: after.sockets ∧
    ((((s.connect fd target).1 = .passthrough ∧
          (before.isStream fd = false ∨ (s.dial target).1 = .ok none) ∨
        ∃ e, (s.connect fd target).1 = .failed e ∧ ((s.dial target).1 = .error e ∨
          ∃ replacement errno, (s.dial target).1 = .ok (some replacement) ∧
            before.faults.duplicate = some errno ∧ e = .ofOs (.numbered errno))) ∧
      after.descriptors = before.descriptors ∧
      after.socketAt? fd = before.socketAt? fd ∧
      ∀ place, before.sockets.length ≤ place → after.references place = 0) ∨
    ∃ held replacement handed place,
      before.socketAt? fd = some held ∧
      (s.connect fd target).1 = (if held.nonblocking then .inProgress else .connected) ∧
      (s.dial target).1 = .ok (some replacement) ∧
      (s.dial target).2.world.network.socketAt? replacement = some handed ∧
      handed.Joined before.peers ∧
      before.sockets.length ≤ place ∧
      after.socketOf? fd = some place ∧
      after.socketAt? fd = some { handed with nonblocking := held.nonblocking } ∧
      (∀ other, other ≠ fd → after.socketOf? other = before.socketOf? other) ∧
      ∀ new, before.sockets.length ≤ new →
        after.references new = if new = place then 1 else 0) := by
  intro before after
  rcases s.connect_cases fd target with
    ⟨gone, left, hverdict⟩ |
    ⟨gone, k, held, replacement, handed, hheld, hverdict, hdial, hhanded, hjoined, left, htaken⟩
  · refine ⟨?_, .inl ⟨hverdict, left.descriptors, left.socketAt? fd, fun place hnew => ?_⟩⟩
    · rw [left.sockets]
      exact List.prefix_append _ _
    · rw [left.references place]
      exact before.references_of_le hnew
  · have hlength : before.sockets.length ≤ k.sockets.length := by
      rw [left.sockets, List.length_append]
      exact Nat.le_add_right _ _
    refine ⟨?_, .inr ⟨held, replacement, handed, k.sockets.length, hheld, hverdict, hdial, hhanded,
      hjoined, hlength, htaken.socketOf?, htaken.socketAt?, fun other hother => ?_,
      fun new hnew => ?_⟩⟩
    · rw [htaken.sockets, left.sockets, List.append_assoc]
      exact List.prefix_append _ _
    · rw [htaken.socketOf?_of_ne hother, left.socketOf?]
    · exact htaken.references ((left.references new).trans (before.references_of_le hnew))

end Session

end Egress
