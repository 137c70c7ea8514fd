import Egress.Proofs.Rotation
import Egress.Router.Operations

/-!
The states a router gets into. Whatever is called in whatever worlds, a name enters the table only
when it is bound, no name is bound that is empty, a numeric host or `localhost`, and the table stays
a window on the list of its allocations.
-/

namespace Egress

namespace Exemptions

/-- A name that is not exempt on any machine, unless it is the machine's own. -/
def Routable (name : String) : Prop := coversName none name = false

theorem routable_of_coversName {localName : Option String} {name : String}
    (h : coversName localName name = false) : Routable name := by
  unfold coversName at h
  unfold Routable coversName
  simp only [Bool.or_eq_false_iff] at h ⊢
  exact ⟨h.1, rfl⟩

theorem Routable.ne_empty {name : String} (h : Routable name) : name ≠ "" := by
  rintro rfl
  cases h

theorem Routable.not_numeric {name : String} (h : Routable name) :
    NumericHost.read? name = none := by
  unfold Routable coversName at h
  simp only [Bool.or_eq_false_iff, Option.isSome_eq_false_iff, Option.isNone_iff_eq_none] at h
  exact h.1.1.2

end Exemptions

namespace SyntheticTable

theorem mem_slots_of_nameOf? {t : SyntheticTable} {a : Ipv4} {name : String}
    (h : t.nameOf? a = some name) : name ∈ t.slots := by
  obtain ⟨slot, -, hslot⟩ := Option.bind_eq_some_iff.1 h
  exact Array.mem_of_getElem? hslot

theorem isSynthetic_of_nameOf? {t : SyntheticTable} {a : Ipv4} {name : String}
    (h : t.nameOf? a = some name) : t.isSynthetic a = true := by
  obtain ⟨slot, hslot, -⟩ := Option.bind_eq_some_iff.1 h
  unfold slotOf? at hslot
  split at hslot
  · rename_i hin
    exact hin.1
  · cases hslot

theorem mem_slots_bind {t : SyntheticTable} {name held : String}
    (h : held ∈ (t.bind name).table.slots) : held ∈ t.slots ∨ held = name := by
  unfold bind at h
  split at h
  · exact .inl h
  · simp only [allocate] at h
    split at h
    · exact Array.mem_push.1 h
    · exact Array.mem_or_eq_of_mem_setIfInBounds h

end SyntheticTable

namespace Session

variable {π ρ : Type} [PolicyEngine π] [Resolver ρ] (s : Session π ρ)

inductive Call
  | route (target : SocketAddr)
  | routeName (name : String) (port : UInt16)
  | resolveName (name : String) (service : Option String) (intent : ResolveIntent)
  | reverseName (address : Ipv4)
  | dial (target : SocketAddr)
  | connect (fd : Descriptor) (target : SocketAddr)

def after : Call → Session π ρ
  | .route target => (s.route target).2
  | .routeName name port => (s.routeName name port).2
  | .resolveName name service intent => (s.resolveName name service intent).2
  | .reverseName _ => s
  | .dial target => (s.dial target).2
  | .connect fd target => (s.connect fd target).2

omit [Resolver ρ] in
theorem table_route (target : SocketAddr) : (s.route target).2.router.table = s.router.table := by
  simp only [route]
  split <;> rfl

omit [PolicyEngine π] in
theorem table_dialAs (endpoint : Endpoint) (decision : Decision) :
    (s.dialAs endpoint decision).2.router.table = s.router.table := by
  simp only [dialAs]
  split
  · cases decision <;> rfl
  · rfl

theorem table_dial (target : SocketAddr) : (s.dial target).2.router.table = s.router.table := by
  have hroute := s.table_route target
  unfold dial
  split <;> rename_i hrun <;> rw [hrun] at hroute
  · exact hroute
  · exact (table_dialAs _ _ _).trans hroute
  · exact (table_dialAs _ _ _).trans hroute

omit [PolicyEngine π] [Resolver ρ] in
theorem table_swap (fd replacement : Descriptor) :
    (s.swap fd replacement).2.router.table = s.router.table := by
  unfold swap
  split <;> rfl

theorem table_connect (fd : Descriptor) (target : SocketAddr) :
    (s.connect fd target).2.router.table = s.router.table := by
  have hdial := s.table_dial target
  unfold connect
  split
  · split <;> rename_i hrun <;> rw [hrun] at hdial
    · exact hdial
    · exact (table_swap _ _ _).trans hdial
    · exact hdial
  · rfl

/-- A call changes the table by binding a name that is not exempt, or not at all. -/
theorem table_after (call : Call) :
    (s.after call).router.table = s.router.table ∨
      ∃ name, Exemptions.coversName s.world.localName name = false ∧
        (s.after call).router.table = (s.router.table.bind name).table := by
  cases call with
  | route target => exact .inl (s.table_route target)
  | routeName name port =>
      simp only [after, routeName]
      split
      · exact .inl (s.table_route _)
      · split
        · exact .inl rfl
        · rename_i hcovers
          exact .inr ⟨name, by simpa using hcovers, rfl⟩
  | resolveName name service intent =>
      simp only [after, resolveName]
      split
      · exact .inl rfl
      · rename_i hpass
        refine .inr ⟨name, ?_, rfl⟩
        simpa using fun hcovers => hpass (.inr hcovers)
  | reverseName address => exact .inl rfl
  | dial target => exact .inl (s.table_dial target)
  | connect fd target => exact .inl (s.table_connect fd target)

end Session

namespace Router

/-- The routers that calls lead to from a new one, each call in a world of its own. -/
inductive Reachable : Router → Prop
  | new (config : RouterConfig) : Reachable (new config)
  | call {π ρ : Type} [PolicyEngine π] [Resolver ρ] {r : Router} (h : Reachable r)
      (world : World π ρ) (call : Session.Call) :
      Reachable ((⟨r, world⟩ : Session π ρ).after call).router

theorem Reachable.routable {r : Router} (h : Reachable r) :
    ∀ name ∈ r.table.slots, Exemptions.Routable name := by
  induction h with
  | new config => simp [Router.new, SyntheticTable.new]
  | call h world call ih =>
      rcases Session.table_after ⟨_, world⟩ call with hsame | ⟨bound, hcovers, hbind⟩
      · rw [hsame]
        exact ih
      · intro name hname
        rw [hbind] at hname
        rcases SyntheticTable.mem_slots_bind hname with hold | rfl
        · exact ih name hold
        · exact Exemptions.routable_of_coversName hcovers

theorem Reachable.mirrors {r : Router} (h : Reachable r) : ∃ l, r.table.Mirrors l := by
  induction h with
  | new config => exact ⟨_, .empty config.block config.capacity⟩
  | call h world call ih =>
      obtain ⟨l, hl⟩ := ih
      rcases Session.table_after ⟨_, world⟩ call with hsame | ⟨bound, -, hbind⟩
      · rw [hsame]
        exact ⟨l, hl⟩
      · rw [hbind]
        exact ⟨_, hl.bind bound⟩

end Router

end Egress
