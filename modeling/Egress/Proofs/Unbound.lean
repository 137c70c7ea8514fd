import Egress.Proofs.NamedDial
import Egress.Proofs.Reachable

/-!
Synthetic addresses without a name. They are the addresses of the block that were never given out,
and they fail closed: nobody is asked about them and nothing is opened for them, whatever the policy
would have decided.
-/

namespace Egress

/-- An address of the block that was not given out: its host part is 0, is beyond the last slot, or
is that of a slot which no allocation has reached. -/
inductive AllocationLog.Vacant (l : AllocationLog) (a : Ipv4) : Prop
  | zero (h : a.hostPart = 0)
  | beyond (h : l.capacity < a.hostPart)
  | unreached (h : l.names.length < a.hostPart)

namespace SyntheticTable.Mirrors

variable {t : SyntheticTable} {l : AllocationLog} {a : Ipv4}

/-- An address of the block is without a name exactly if it is vacant: a slot that was allocated
once is never empty again. -/
theorem nameOf?_eq_none_iff (h : t.Mirrors l) (hblock : t.isSynthetic a = true) :
    t.nameOf? a = none ↔ l.Vacant a := by
  have hcapacity := h.capacity
  by_cases hslot : 0 < a.hostPart ∧ a.hostPart ≤ t.capacity
  · have hname : t.nameOf? a = t.slots[a.hostPart - 1]? := by
      simp only [nameOf?, slotOf?, if_pos (And.intro hblock hslot)]
      rfl
    rw [hname, Array.getElem?_eq_none_iff, h.filled]
    constructor
    · intro hle
      exact .unreached (by omega)
    · rintro (hzero | hbeyond | hunreached) <;> omega
  · have hname : t.nameOf? a = none := by
      simp only [nameOf?, slotOf?, if_neg fun hin => hslot (And.right hin)]
      rfl
    refine iff_of_true hname ?_
    by_cases hzero : a.hostPart = 0
    · exact .zero hzero
    · exact .beyond (by omega)

/-- The vacant addresses of the block are those that no allocation has. -/
theorem vacant_iff (h : t.Mirrors l) (hblock : t.isSynthetic a = true) :
    l.Vacant a ↔ ∀ k < l.names.length, l.address k ≠ a := by
  constructor
  · rintro hvacant k hk rfl
    have hhost := AllocationLog.hostPart_address h.capacity_pos h.capacity_lt k
    have := Nat.mod_lt k h.capacity_pos
    have := Nat.mod_le k l.capacity
    cases hvacant <;> omega
  · intro hnever
    rw [← h.nameOf?_eq_none_iff hblock, Option.eq_none_iff_forall_ne_some]
    intro name hname
    obtain ⟨k, hk, haddress⟩ := h.nameOf?_eq_some.1 hname
    exact hnever k (List.getElem?_eq_some_iff.1 hk.2).1 haddress

end SyntheticTable.Mirrors

theorem Dialer.establish_of_unbound {ρ : Type} [Resolver ρ] (d : Dialer ρ) {table : SyntheticTable}
    {e : Endpoint} {a : Ipv4} (hip : e.ip = .v4 a) (hblock : table.isSynthetic a = true)
    (hfree : table.nameOf? a = none) (ceiling : Nat) (decision : Decision) :
    d.establish table ceiling e decision = (.error (.staleSyntheticAddress a), d) := by
  simp only [establish, DialContext.of_unbound hip hblock hfree]

namespace Session

variable {π ρ : Type} [PolicyEngine π] [Resolver ρ]

omit [Resolver ρ] in
/-- There is no name to ask about. -/
theorem askEndpoint_of_unbound (s : Session π ρ) {e : Endpoint} {a : Ipv4} (hip : e.ip = .v4 a)
    (hblock : s.router.table.isSynthetic a = true) (hfree : s.reverseName a = none) :
    s.askEndpoint e = (.direct, s) := by
  simp only [askEndpoint, askName, DecisionCache.query_of_trivial _ _ _ _
    (.inl (DecisionCache.nameFor_unbound hip hblock hfree))]

/-- The addresses of the block without a name are the vacant ones, and a target with such an address
fails closed. A dial asks and opens nothing and only counts a failure, and what establishes
connections refuses the address under every decision. -/
theorem dial_of_unbound (s : Session (RecordedPolicy π) (RecordedResolver ρ))
    (hreachable : s.router.Reachable) {a : Ipv4}
    (hblock : s.router.table.isSynthetic a = true) :
    ∃ l, s.router.table.Mirrors l ∧ (s.reverseName a = none ↔ l.Vacant a) ∧
      (l.Vacant a →
        (∀ target, (Endpoint.normalize target).ip = .v4 a →
          s.router.exemptions.coversEndpoint (.normalize target) = false →
          s.bare.dial target = ((s.dial target).1, (s.dial target).2.bare) ∧
          (s.dial target).1 = .error (.staleSyntheticAddress a) ∧
          (s.dial target).2.world = s.world ∧
          (s.dial target).2.router = { s.router with failed := s.router.failed + 1 }) ∧
        ∀ (d : Dialer ρ) (ceiling : Nat) (e : Endpoint) (decision : Decision), e.ip = .v4 a →
          d.establish s.router.table ceiling e decision =
            (.error (.staleSyntheticAddress a), d)) := by
  obtain ⟨l, hmirrors⟩ := hreachable.mirrors
  have hvacant := hmirrors.nameOf?_eq_none_iff hblock
  refine ⟨l, hmirrors, hvacant, fun hfree => ?_⟩
  rw [← hvacant] at hfree
  refine ⟨fun target hip hexempt => ⟨s.dial_bare target, ?_⟩,
    fun d ceiling e decision hip => d.establish_of_unbound hip hblock hfree ceiling decision⟩
  simp only [s.dial_eq_dialAs hexempt, s.askEndpoint_of_unbound hip hblock hfree, dialAs,
    Dialer.establish_of_unbound _ hip hblock hfree]
  exact ⟨rfl, rfl, rfl⟩

theorem dial_of_unbound_unreached :
    let s := proxiedSession.after (.resolveName "b.test" none .application)
    (s.dial (.v4 ⟨.of 240 0 0 2, 443⟩)).1 = .error (.staleSyntheticAddress (.of 240 0 0 2)) ∧
      (s.dial (.v4 ⟨.of 240 0 0 2, 443⟩)).2.world.policy.notes = [] := by
  intro s
  have hreachable : s.router.Reachable := .call (.new _) proxiedSession.world _
  have hblock : s.router.table.isSynthetic (.of 240 0 0 2) = true := by
    rw [table_after_resolveName]
    rfl
  have hfree : s.reverseName (.of 240 0 0 2) = none := by
    rw [reverseName, table_after_resolveName]
    rfl
  have hexempt : s.router.exemptions.coversEndpoint
      (.normalize (.v4 ⟨.of 240 0 0 2, 443⟩)) = false := by
    rw [router_after_resolveName]
    decide
  obtain ⟨l, -, hvacant, hcloses⟩ := s.dial_of_unbound hreachable hblock
  obtain ⟨-, hstale, hworld, -⟩ :=
    (hcloses (hvacant.1 hfree)).1 (.v4 ⟨.of 240 0 0 2, 443⟩) rfl hexempt
  exact ⟨hstale, by rw [hworld, notes_after_resolveName]⟩

end Session

end Egress
