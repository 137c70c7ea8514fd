import Egress.DecisionCache
import Egress.Lookup.Basic

/-!
Engines, resolvers and name services behind a recorder, which hands every question on, gives every
answer back as it is, and notes both. What an operation asked is what the notes grew by.
-/

namespace Egress

structure PolicyNote where
  application : String
  name : String
  port : UInt16
  answer : Except PolicyError PolicyAnswer

structure RecordedPolicy (π : Type) where
  engine : π
  notes : List PolicyNote := []

instance {π : Type} [PolicyEngine π] : PolicyEngine (RecordedPolicy π) where
  evaluate p application name port :=
    let (answer, engine) := PolicyEngine.evaluate p.engine application name port
    (answer, ⟨engine, p.notes ++ [⟨application, name, port, answer⟩]⟩)

/-- The recorder is not noticed: the bare engine leads to the same decision and the same cache. -/
theorem DecisionCache.query_engine {π : Type} [PolicyEngine π] (c : DecisionCache)
    (p : RecordedPolicy π) (journal : Journal) (now : Nat) (name : String) (port : UInt16) :
    c.query p.engine journal now name port =
      ⟨(c.query p journal now name port).decision, (c.query p journal now name port).cache,
        (c.query p journal now name port).policy.engine,
        (c.query p journal now name port).journal⟩ := by
  simp only [query]
  split
  · rfl
  · split <;> rfl

/-- An engine is asked about this name at this port only, and once at most. -/
theorem DecisionCache.query_notes {π : Type} [PolicyEngine π] (c : DecisionCache)
    (p : RecordedPolicy π) (journal : Journal) (now : Nat) (name : String) (port : UInt16) :
    ∃ asked, (c.query p journal now name port).policy.notes = p.notes ++ asked ∧
      asked.length ≤ 1 ∧ ∀ q ∈ asked, q.name = name ∧ q.port = port := by
  unfold query
  split
  · exact ⟨[], (List.append_nil _).symm, Nat.zero_le 1, nofun⟩
  · split
    · exact ⟨[], (List.append_nil _).symm, Nat.zero_le 1, nofun⟩
    · refine ⟨[_], rfl, Nat.le_refl 1, fun q hq => ?_⟩
      rw [List.mem_singleton.1 hq]
      exact ⟨rfl, rfl⟩

structure ResolverNote where
  host : String
  port : UInt16
  answer : Except ResolveError (List SocketAddr)

structure RecordedResolver (ρ : Type) where
  resolver : ρ
  notes : List ResolverNote := []

instance {ρ : Type} [Resolver ρ] : Resolver (RecordedResolver ρ) where
  resolve r now host port :=
    let (answer, resolver) := Resolver.resolve r.resolver now host port
    (answer, ⟨resolver, r.notes ++ [⟨host, port, answer⟩]⟩)

structure ServiceNote where
  time : Nat
  host : String
  answer : Except LookupFailure (List IpAddr)

structure RecordedService (ν : Type) where
  service : ν
  notes : List ServiceNote := []

instance {ν : Type} [NameService ν] : NameService (RecordedService ν) where
  lookup r now host :=
    let (answer, service) := NameService.lookup r.service now host
    (answer, ⟨service, r.notes ++ [⟨now, host, answer⟩]⟩)

end Egress
