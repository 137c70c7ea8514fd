import Egress.Proofs.Accounting
import Egress.Proofs.Swap

/-!
What a connect counts, by its verdict. Connections and failures are counted when the dial ends. The
new connection is put under the caller's descriptor after that, so a fault in doing so gives the
verdict of a failure to what was counted as a connection.
-/

namespace Egress

namespace Router

/-- `t` has counted so many outcomes more than `r`. -/
structure Tallied (r t : Router) (direct proxied failed : Nat) : Prop where
  direct : t.direct = r.direct + direct
  proxied : t.proxied = r.proxied + proxied
  failed : t.failed = r.failed + failed

/-- `t` has counted one connection more than `r` and no failure. -/
def TalliedConnection (r t : Router) : Prop := r.Tallied t 1 0 0 ∨ r.Tallied t 0 1 0

end Router

namespace Session

variable {π ρ : Type} [PolicyEngine π] [Resolver ρ] (s : Session π ρ)

/-- A dial counts what it answers. -/
theorem dial_tallies (target : SocketAddr) :
    let t := (s.dial target).2.router
    match (s.dial target).1 with
    | .ok none => s.router.Tallied t 0 0 0
    | .ok (some _) => s.router.TalliedConnection t
    | .error _ => s.router.Tallied t 0 0 1 := by
  intro t
  obtain ⟨hnone, hfailed⟩ := s.dial_accounted target
  have hmoved := s.moved_dial target
  have htallied : s.router.Tallied t
      ((s.account (.dial target)).established == some .direct).toNat
      ((s.account (.dial target)).established == some .proxied).toNat
      ((s.account (.dial target)).established == some .failed).toNat :=
    ⟨hmoved.direct, hmoved.proxied, hmoved.failed⟩
  cases hdial : (s.dial target).1 with
  | error e =>
      rwa [hfailed.1 ⟨e, hdial⟩] at htallied
  | ok opened =>
      cases opened with
      | none => rwa [hnone.1 hdial] at htallied
      | some fd =>
          cases hways : (s.account (.dial target)).established with
          | none => simp [hnone.2 hways] at hdial
          | some way =>
              rw [hways] at htallied
              cases way with
              | direct => exact .inl htallied
              | proxied => exact .inr htallied
              | failed =>
                  obtain ⟨e, he⟩ := hfailed.2 hways
                  simp [he] at hdial

/-- Verdicts and counters tell the same story, except that a connection whose descriptor cannot be
duplicated is counted as one although the verdict is a failure. -/
theorem connect_tallies (fd : Descriptor) (target : SocketAddr) :
    let t := (s.connect fd target).2.router
    match (s.connect fd target).1 with
    | .passthrough => s.router.Tallied t 0 0 0
    | .connected | .inProgress => s.router.TalliedConnection t
    | .failed e =>
        ((s.dial target).1 = .error e ∧ s.router.Tallied t 0 0 1) ∨
        ∃ replacement errno, (s.dial target).1 = .ok (some replacement) ∧
          s.world.network.faults.duplicate = some errno ∧ e = .ofOs (.numbered errno) ∧
          s.router.TalliedConnection t := by
  intro t
  cases hstream : s.world.network.isStream fd with
  | false =>
      have hrun : s.connect fd target = (.passthrough, s) := by
        simp only [connect, hstream, Bool.false_eq_true, if_false]
      simp only [t, hrun]
      exact ⟨rfl, rfl, rfl⟩
  | true =>
      -- The swap counts nothing, so the dial's tally is the connect's, whatever the verdict is.
      have htallies := s.dial_tallies target
      simp only [← (s.connect_frame hstream target).1] at htallies
      rcases s.connect_cases fd target with
        ⟨-, -, ⟨hverdict, hpassed⟩ |
          ⟨e, hverdict, hdial | ⟨replacement, errno, hdial, hfault, he⟩⟩⟩ |
        ⟨-, -, held, replacement, -, -, hverdict, hdial, -⟩
      · rw [hstream] at hpassed
        rw [hpassed.resolve_left Bool.noConfusion] at htallies
        rw [hverdict]
        exact htallies
      · rw [hdial] at htallies
        rw [hverdict]
        exact .inl ⟨hdial, htallies⟩
      · rw [hdial] at htallies
        rw [hverdict]
        exact .inr ⟨replacement, errno, hdial, hfault, he, htallies⟩
      · rw [hdial] at htallies
        rw [hverdict]
        cases held.nonblocking <;> exact htallies

open Rehearsal in
/-- A caller with a stream socket, a peer to connect it to, and descriptors that cannot be
duplicated. -/
def crowdedSession : Session (Prompter (Except PolicyError PolicyAnswer))
    (Directory (UInt16 → Except ResolveError (List SocketAddr))) where
  router := .new (.standard "app")
  world := {
    now := 0
    journal := { processId := 1 }
    network := (Network.add {
      peers := [{ address := .v4 ⟨.of 203 0 113 7, 80⟩ }]
      faults := { duplicate := some 24 } } {}).2
    resolver := ⟨[], fun _ => .ok [], []⟩
    hostAnswer := none
    policy := ⟨[], .ok { host := none, port := 0 }, []⟩ }

/-- The verdict is a failure, and what is counted is a direct connection. -/
theorem connect_counts_failed_swap :
    let connected := crowdedSession.connect 1000 (.v4 ⟨.of 203 0 113 7, 80⟩)
    connected.1 = .failed (.ofOs (.numbered 24)) ∧
      crowdedSession.router.counters.direct = 0 ∧ connected.2.router.counters.direct = 1 ∧
      connected.2.router.counters.failed = 0 := by
  have hexempt : crowdedSession.router.exemptions.coversEndpoint
      (.normalize (.v4 ⟨.of 203 0 113 7, 80⟩)) = false := by decide
  have hname : DecisionCache.nameFor crowdedSession.router.table
      (.normalize (.v4 ⟨.of 203 0 113 7, 80⟩)) ≠ "" := by decide
  have hport : (Endpoint.normalize (.v4 ⟨.of 203 0 113 7, 80⟩)).port ≠ 0 := by decide
  have hask := DecisionCache.query_of_miss crowdedSession.router.cache crowdedSession.world.policy
    crowdedSession.world.journal crowdedSession.world.now hname hport Std.HashMap.getElem?_empty
  have hstream : crowdedSession.world.network.isStream 1000 = true := by decide
  simp only [connect, hstream, if_true, crowdedSession.dial_eq_dialAs hexempt, askEndpoint, askName,
    hask]
  exact ⟨rfl, rfl, rfl, rfl⟩

end Session

end Egress
