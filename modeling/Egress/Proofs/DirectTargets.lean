import Egress.Proofs.NamedDial

/-!
Where a direct dial connects to. The address of a bound name is never dialed itself, and what a
lookup gives for the name is filtered as it is written: of the addresses in the synthetic block only
the IPv4-mapped spellings get through.
-/

namespace Egress

/-- A context is that of an address out of the block or of a name bound to one in it. Only an
address in the block to which no name is bound has none. -/
theorem DialContext.of_cases (table : SyntheticTable) (e : Endpoint) (decision : Decision) :
    (∃ a, e.ip = .v4 a ∧ DialContext.of table e decision = .error (.staleSyntheticAddress a)) ∨
    (∃ a name, e.ip = .v4 a ∧ table.nameOf? a = some name ∧
      DialContext.of table e decision = .ok ⟨e, decision, some name⟩) ∨
    ((∀ a, e.ip = .v4 a → table.isSynthetic a = false) ∧
      DialContext.of table e decision = .ok ⟨e, decision, none⟩) := by
  cases hip : e.ip with
  | v6 a => exact .inr (.inr ⟨nofun, by simp only [DialContext.of, hip]⟩)
  | v4 a =>
      cases hname : table.nameOf? a with
      | some name => exact .inr (.inl ⟨a, name, rfl, hname, DialContext.of_named hip hname _⟩)
      | none =>
          cases hblock : table.isSynthetic a with
          | true => exact .inl ⟨a, rfl, DialContext.of_unbound hip hblock hname _⟩
          | false =>
              refine .inr (.inr ⟨?_, ?_⟩)
              · rintro b ⟨⟩
                exact hblock
              · simp only [DialContext.of, hip, hblock, Bool.false_eq_true, if_false]

namespace Dialer

theorem mapped_of_isReal {table : SyntheticTable} {target : SocketAddr} {a : Ipv4}
    (hreal : isReal table target = true) (hip : (Endpoint.normalize target).ip = .v4 a)
    (hblock : table.isSynthetic a = true) :
    ∃ spelling, target = .v6 spelling ∧ spelling.ip.mapped? = some a := by
  cases target with
  | v4 raw =>
      obtain rfl : raw.ip = a := IpAddr.v4.inj hip
      simp only [isReal, SocketAddr.ip, hblock, Bool.not_true, Bool.false_eq_true] at hreal
  | v6 spelling =>
      refine ⟨spelling, rfl, ?_⟩
      change (IpAddr.v6 spelling.ip).canonical = .v4 a at hip
      cases hcarried : spelling.ip.mapped? with
      | none =>
          simp only [IpAddr.canonical, hcarried] at hip
          cases hip
      | some carried =>
          simp only [IpAddr.canonical, hcarried] at hip
          rw [IpAddr.v4.inj hip]

variable {ρ : Type} [Resolver ρ]

/-- A direct dial connects to an address in the synthetic block only if a lookup for a bound name
gave its IPv4-mapped spelling. -/
theorem establish_direct_targets (d : Dialer ρ) (table : SyntheticTable) (ceiling : Nat)
    (e : Endpoint) :
    ∃ opened,
      (d.establish table ceiling e .direct).2.network.sockets = d.network.sockets ++ opened ∧
      ∀ s ∈ opened, ∀ target ∈ s.targets, ∀ a, (Endpoint.normalize target).ip = .v4 a →
        table.isSynthetic a = true →
        (∃ spelling, target = .v6 spelling ∧ spelling.ip.mapped? = some a) ∧
        ∃ bound name found, e.ip = .v4 bound ∧ table.nameOf? bound = some name ∧
          (Resolver.resolve d.resolver d.now name e.port).1 = .ok found ∧ target ∈ found := by
  rcases DialContext.of_cases table e .direct with
    ⟨a, -, hcontext⟩ | ⟨bound, name, hbound, hname, hcontext⟩ | ⟨hout, hcontext⟩
  · simp only [establish, hcontext]
    exact ⟨[], (List.append_nil _).symm, by simp⟩
  · simp only [establish, hcontext]
    obtain ⟨-, opened, hdialed, htargets⟩ :=
      d.directDial_of_name table ceiling (c := ⟨e, .direct, some name⟩) rfl
    refine ⟨opened, hdialed.sockets, fun s hs target htarget a hip hblock => ?_⟩
    obtain ⟨hreal, found, hfound, hmem⟩ := htargets s hs target htarget
    exact ⟨mapped_of_isReal hreal hip hblock, bound, name, found, hbound, hname, hfound, hmem⟩
  · simp only [establish, hcontext]
    obtain ⟨opened, hdialed, htargets⟩ :=
      d.directDial_of_unnamed table ceiling (c := ⟨e, .direct, none⟩) rfl
    refine ⟨opened, hdialed.sockets, fun s hs target htarget a hip hblock => ?_⟩
    obtain rfl := List.mem_singleton.1 (htargets s hs htarget)
    rw [Endpoint.normalize_socketAddr] at hip
    rw [hout a hip] at hblock
    contradiction

open Rehearsal in
/-- A dialer whose resolver answers with the mapped spelling of an address in the default block. -/
def mappedDialer : Dialer (Directory (UInt16 → Except ResolveError (List SocketAddr))) where
  now := 0
  journal := { processId := 1 }
  network := { peers := [{ address := .v6 { ip := .ofMapped (.of 240 0 0 9), port := 443 } }] }
  resolver := ⟨[], fun port => .ok [.v6 { ip := .ofMapped (.of 240 0 0 9), port }], []⟩

/-- The spelling gets through the filter, and an address in the block is connected to. -/
theorem establish_direct_enters_block :
    let table := ((SyntheticTable.new SyntheticTable.defaultBlock SyntheticTable.maxCapacity).bind
      "a.test").table
    let dialed := mappedDialer.establish table RouterConfig.defaultCeiling
      (.new (.v4 (.of 240 0 0 1)) 443) .direct
    dialed.1 = .ok 1000 ∧
      ∃ s ∈ dialed.2.network.sockets, ∃ target ∈ s.targets, ∃ a,
        (Endpoint.normalize target).ip = .v4 a ∧ table.isSynthetic a = true := by
  intro table dialed
  have hmirrors : table.Mirrors ⟨240, 0xffffff, ["a.test"]⟩ :=
    (SyntheticTable.Mirrors.empty 240 0xffffff).bind "a.test"
  have hname : table.nameOf? (.of 240 0 0 1) = some "a.test" :=
    (hmirrors.nameOf?_eq _).trans (by decide)
  have hblock : table.isSynthetic (.of 240 0 0 9) = true := by
    rw [SyntheticTable.isSynthetic, hmirrors.block]
    rfl
  have hcontext := DialContext.of_named (e := .new (.v4 (.of 240 0 0 1)) 443) rfl hname .direct
  have hdialed : dialed.1 = .ok 1000 ∧ dialed.2.network.sockets.map (·.targets) =
      [[.v6 { ip := .ofMapped (.of 240 0 0 9), port := 443 }]] := by
    simp only [dialed, establish, hcontext]
    exact ⟨rfl, rfl⟩
  obtain ⟨s, hs, htargets⟩ : ∃ s ∈ dialed.2.network.sockets, s.targets =
      [.v6 { ip := .ofMapped (.of 240 0 0 9), port := 443 }] := by
    rw [← List.mem_map, hdialed.2]
    exact List.mem_singleton_self _
  exact ⟨hdialed.1, s, hs, _, htargets ▸ List.mem_singleton_self _, .of 240 0 0 9, by decide,
    hblock⟩

end Dialer

end Egress
