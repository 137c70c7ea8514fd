import Egress.Proofs.DomainLabels
import Egress.Proofs.ExemptNetworks

/-!
Where a rule applies. Both of its matchers have to accept, the one for applications and the one for
hosts, and each kind of host matcher has its own reason to: there is no dot in the name, a pattern
covers it, its last labels are those of a domain, or it is an address of a network. Patterns are for
the matcher in use to say, whichever that is.
-/

namespace Egress

theorem HostName.isPlain_iff {host : String} : isPlain host = true ↔ '.' ∉ host.toList := by
  rw [isPlain, Bool.not_eq_true', ← Bool.not_eq_true, List.contains_iff_mem]

variable [Text.Covering]

/-- A matcher accepts a host. -/
inductive HostMatcher.Accepts (host : String) : HostMatcher → Prop
  | any : Accepts host .any
  | plain (h : '.' ∉ host.toList) : Accepts host .plain
  | pattern {w : Text.Wildcard} (h : Text.Covering.covers w (Text.lower host) = true) :
      Accepts host (.pattern w)
  | domain {d : String} (h : HostName.EndsWith host.toList d.toList) : Accepts host (.domain d)
  | network {net mask a : Ipv4} (haddress : Ipv4.read? host = some a)
      (h : ∀ i, mask.bits.getLsbD i = true → a.bits.getLsbD i = net.bits.getLsbD i) :
      Accepts host (.network net mask)

namespace HostMatcher

theorem accepts_network_iff {net mask : Ipv4} {host : String} : Accepts host (.network net mask) ↔
    ∃ a, Ipv4.read? host = some a ∧
      ∀ i, mask.bits.getLsbD i = true → a.bits.getLsbD i = net.bits.getLsbD i := by
  constructor
  · rintro (_ | _ | _ | _ | ⟨haddress, h⟩)
    exact ⟨_, haddress, h⟩
  · rintro ⟨a, haddress, h⟩
    exact .network haddress h

theorem covers_iff {m : HostMatcher} {host : String} : m.covers host = true ↔ m.Accepts host := by
  cases m with
  | any => exact iff_of_true rfl .any
  | plain =>
      refine HostName.isPlain_iff.trans ⟨.plain, fun h => ?_⟩
      cases h with
      | plain h => exact h
  | pattern w =>
      refine ⟨.pattern, fun h => ?_⟩
      cases h with
      | pattern h => exact h
  | domain d =>
      refine (HostName.isInDomain_iff_endsWith host d).trans ⟨.domain, fun h => ?_⟩
      cases h with
      | domain h => exact h
  | network net mask =>
      rw [accepts_network_iff, covers, Option.any_eq_true]
      simp only [Ipv4.agree_iff]

end HostMatcher

namespace Rule

/-- Both matchers of a rule accept. Without one for applications it is a rule for all of them. -/
structure Applies (r : Rule) (application host : String) : Prop where
  application : ∀ w, r.application = some w → Text.Covering.covers w application = true
  host : r.host.Accepts host

theorem covers_iff {r : Rule} {application host : String} :
    r.covers application host = true ↔ r.Applies application host := by
  rw [covers, Bool.and_eq_true, Option.all_eq_true, HostMatcher.covers_iff]
  exact ⟨fun ⟨happlication, hhost⟩ => ⟨happlication, hhost⟩,
    fun h => ⟨h.application, h.host⟩⟩

end Rule

end Egress
