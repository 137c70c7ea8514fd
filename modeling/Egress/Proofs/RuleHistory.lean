import Egress.Proofs.AddressText
import Egress.Proofs.DecisionMemo
import Egress.Proofs.RuleMatch
import Mathlib.Data.List.Basic
import Mathlib.Data.List.Induction
import Mathlib.Data.List.Nodup
import Mathlib.Data.List.TakeWhile

/-!
A rule policy behind a decision cache, over any run of installations, removals and questions. The
rules are the installed ones that were not withdrawn, in the order of their installation. The first
that applies decides a question, of those there are now or, where answers are kept, of those there
were when the destination was first asked about.
-/

namespace Egress

/-- A decision that can be carried out: a proxy has a port. -/
def Decision.Usable : Decision → Prop
  | .direct => True
  | .socks5 proxy => proxy.port ≠ 0

namespace Ipv4

theorem isBlank_of_mem_chars {a : Ipv4} {c : Char} (h : c ∈ a.chars) : Text.isBlank c = false := by
  rcases dot_or_isDigit_of_mem_chars h with rfl | hdigit
  · decide
  · exact Text.isBlank_of_isDigit hdigit

theorem read?_trim_text (a : Ipv4) : read? (Text.trim a.text) = some a := by
  have hblank : ∀ c ∈ a.text.toList, Text.isBlank c = false := by
    intro c hc
    rw [text, String.toList_ofList] at hc
    exact isBlank_of_mem_chars hc
  rw [Text.trim_of_isBlank_eq_false hblank, read?, text, String.toList_ofList, ofChars?_chars]

end Ipv4

namespace PolicyAnswer

/-- A proxy is named in text and found again by it. -/
theorem meaning_ofDecision {decision : Decision} (h : decision.Usable) (noCache : Bool) :
    meaning (.ok (ofDecision decision noCache)) = decision := by
  cases decision with
  | direct => rfl
  | socks5 proxy =>
      simp only [meaning, ofDecision, Option.bind_some, Ipv4.read?_trim_text]
      exact if_neg h

theorem storable_ofDecision {decision : Decision} (h : decision.Usable) (noCache : Bool) :
    Storable (.ok (ofDecision decision noCache)) ↔ noCache = false := by
  refine ⟨?_, fun hkeep => ⟨_, rfl, ?_⟩⟩
  · rintro ⟨a, ha, hkeep, -⟩
    cases decision <;> cases ha <;> exact hkeep
  · cases decision with
    | direct => exact ⟨hkeep, .inl rfl⟩
    | socks5 proxy =>
        exact ⟨hkeep, .inr ⟨proxy.ip.text, proxy.ip, rfl, proxy.ip.read?_trim_text, h⟩⟩

end PolicyAnswer

namespace RulePolicy

/-- What is asked of a rule policy and the cache in front of it. -/
inductive Call
  | install (application : Option String) (host : HostMatcher) (action : Decision)
  | remove (id : Nat)
  | query (name : String) (port : UInt16) (now : Nat)

inductive Answer
  | installed (id : Nat)
  | removed (found : Bool)
  | decided (decision : Decision)

/-- The rules a history installs, the first of them with this number. -/
def installedFrom (id : Nat) : List Call → List Rule
  | [] => []
  | .install application host action :: calls =>
      { id, application := application.map .ofText, host, action } :: installedFrom (id + 1) calls
  | .remove _ :: calls => installedFrom id calls
  | .query .. :: calls => installedFrom id calls

def installed (calls : List Call) : List Rule := installedFrom 1 calls

/-- The number was given to a rule and has been removed since. -/
def Withdrawn (calls : List Call) (id : Nat) : Prop :=
  ∃ front back, calls = front ++ .remove id :: back ∧ ∃ r ∈ installed front, r.id = id

def Live (calls : List Call) (r : Rule) : Prop := r ∈ installed calls ∧ ¬Withdrawn calls r.id

def Call.asks (name : String) (port : UInt16) : Call → Bool
  | .query name' port' _ => name' == name && port' == port
  | _ => false

/-- What came before the first question about a destination, or everything if it was never asked
about. -/
def beforeFirst (calls : List Call) (name : String) (port : UInt16) : List Call :=
  calls.takeWhile fun c => !c.asks name port

/-- The earliest live rule that applies to an application and a host decides, or else the
fallback. -/
def Elects [Text.Covering] (fallback : Decision) (calls : List Call) (application host : String)
    (decision : Decision) : Prop :=
  (∃ r, Live calls r ∧ r.Applies application host ∧ r.action = decision ∧
    ∀ r', Live calls r' → r'.Applies application host → r.id ≤ r'.id) ∨
  ((∀ r, Live calls r → ¬r.Applies application host) ∧ decision = fallback)

section Installed

theorem installedFrom_append (id : Nat) (calls more : List Call) :
    installedFrom id (calls ++ more) = installedFrom id calls ++
      installedFrom (id + (installedFrom id calls).length) more := by
  induction calls generalizing id with
  | nil => rfl
  | cons call calls ih =>
      cases call with
      | install application host action =>
          simp only [List.cons_append, installedFrom, ih, List.length_cons]
          rw [Nat.add_right_comm, Nat.add_assoc]
      | remove removed => exact ih id
      | query name port now => exact ih id

theorem ids_installedFrom (id : Nat) (calls : List Call) :
    (installedFrom id calls).map (·.id) = List.range' id (installedFrom id calls).length := by
  induction calls generalizing id with
  | nil => rfl
  | cons call calls ih =>
      cases call with
      | install application host action =>
          rw [installedFrom, List.map_cons, ih, List.length_cons, List.range'_succ]
      | remove removed => exact ih id
      | query name port now => exact ih id

theorem installed_concat (calls : List Call) (call : Call) :
    installed (calls ++ [call]) =
      installed calls ++ installedFrom ((installed calls).length + 1) [call] := by
  rw [installed, installedFrom_append, Nat.add_comm 1, installed]

theorem installed_concat_remove (calls : List Call) (id : Nat) :
    installed (calls ++ [.remove id]) = installed calls := by
  rw [installed_concat, installedFrom, installedFrom, List.append_nil]

theorem installed_concat_query (calls : List Call) (name : String) (port : UInt16) (now : Nat) :
    installed (calls ++ [.query name port now]) = installed calls := by
  rw [installed_concat, installedFrom, installedFrom, List.append_nil]

theorem increasing_installed (calls : List Call) :
    (installed calls).Pairwise fun r s => r.id < s.id := by
  have hids := @List.pairwise_lt_range' 1 (installed calls).length 1
  rw [installed, ← ids_installedFrom, List.pairwise_map] at hids
  exact hids

theorem eq_of_id_eq {calls : List Call} {r r' : Rule} (hr : r ∈ installed calls)
    (hr' : r' ∈ installed calls) (h : r.id = r'.id) : r = r' := by
  have hnodup : ((installed calls).map (·.id)).Nodup := by
    rw [installed, ids_installedFrom]
    exact List.nodup_range'
  exact List.inj_on_of_nodup_map hnodup hr hr' h

theorem exists_id_iff (calls : List Call) (id : Nat) :
    (∃ r ∈ installed calls, r.id = id) ↔ 1 ≤ id ∧ id ≤ (installed calls).length := by
  rw [← List.mem_map, installed, ids_installedFrom, List.mem_range'_1]
  omega

end Installed

section Withdrawn

variable {calls : List Call} {id : Nat} {r : Rule}

theorem Withdrawn.issued (h : Withdrawn calls id) : ∃ r ∈ installed calls, r.id = id := by
  obtain ⟨front, back, rfl, r, hr, hid⟩ := h
  exact ⟨r, by rw [installed, installedFrom_append]; exact List.mem_append_left _ hr, hid⟩

theorem Withdrawn.mem (h : Withdrawn calls id) : .remove id ∈ calls := by
  obtain ⟨front, back, rfl, -⟩ := h
  exact List.mem_append_right front List.mem_cons_self

theorem withdrawn_concat {call : Call} : Withdrawn (calls ++ [call]) id ↔
    Withdrawn calls id ∨ call = .remove id ∧ ∃ r ∈ installed calls, r.id = id := by
  constructor
  · rintro ⟨front, back, heq, hissued⟩
    rcases List.eq_nil_or_concat' back with rfl | ⟨back, last, rfl⟩
    · obtain ⟨rfl, hlast⟩ := List.append_inj' heq rfl
      exact .inr ⟨List.cons.inj hlast |>.1, hissued⟩
    · rw [← List.cons_append, ← List.append_assoc] at heq
      exact .inl ⟨front, back, (List.append_inj' heq rfl).1, hissued⟩
  · rintro (⟨front, back, rfl, hissued⟩ | ⟨rfl, hissued⟩)
    · exact ⟨front, back ++ [call], by simp, hissued⟩
    · exact ⟨calls, [], rfl, hissued⟩

theorem live_install {application : Option String} {host : HostMatcher} {action : Decision} :
    Live (calls ++ [.install application host action]) r ↔
      Live calls r ∨
        r = ⟨(installed calls).length + 1, application.map .ofText, host, action⟩ := by
  simp only [Live, installed_concat, installedFrom, List.mem_append, List.mem_singleton,
    withdrawn_concat, reduceCtorEq, false_and, or_false]
  constructor
  · rintro ⟨hold | rfl, hkept⟩
    · exact .inl ⟨hold, hkept⟩
    · exact .inr rfl
  · rintro (⟨hold, hkept⟩ | rfl)
    · exact ⟨.inl hold, hkept⟩
    · refine ⟨.inr rfl, fun hwithdrawn => ?_⟩
      exact Nat.not_succ_le_self _ ((exists_id_iff calls _).1 hwithdrawn.issued).2

theorem live_remove : Live (calls ++ [.remove id]) r ↔ Live calls r ∧ r.id ≠ id := by
  simp only [Live, installed_concat_remove, withdrawn_concat, Call.remove.injEq, not_or, and_assoc]
  constructor
  · rintro ⟨hinstalled, hkept, hother⟩
    exact ⟨hinstalled, hkept, fun hid => hother ⟨hid.symm, r, hinstalled, rfl⟩⟩
  · rintro ⟨hinstalled, hkept, hother⟩
    exact ⟨hinstalled, hkept, fun hid => hother hid.1.symm⟩

theorem live_query {name : String} {port : UInt16} {now : Nat} :
    Live (calls ++ [.query name port now]) r ↔ Live calls r := by
  simp [Live, installed_concat_query, withdrawn_concat]

theorem exists_live_iff : (∃ r, Live calls r ∧ r.id = id) ↔
    (∃ r ∈ installed calls, r.id = id) ∧ ¬Withdrawn calls id := by
  constructor
  · rintro ⟨r, ⟨hinstalled, hkept⟩, rfl⟩
    exact ⟨⟨r, hinstalled, rfl⟩, hkept⟩
  · rintro ⟨⟨r, hinstalled, rfl⟩, hkept⟩
    exact ⟨r, ⟨hinstalled, hkept⟩, rfl⟩

end Withdrawn

/-- The rules are the live ones of a history, in order. -/
structure Follows (p : RulePolicy) (fallback : Decision) (noCache : Bool) (calls : List Call) :
    Prop where
  ordered : p.rules.Sublist (installed calls)
  live : ∀ r, r ∈ p.rules ↔ Live calls r
  next : p.nextId = (installed calls).length + 1
  fallback : p.fallback = fallback
  noCache : p.noCache = noCache

namespace Follows

variable {p : RulePolicy} {fallback : Decision} {noCache : Bool} {calls : List Call}

theorem new (fallback : Decision) (noCache : Bool) :
    Follows { fallback, noCache } fallback noCache [] where
  ordered := .slnil
  live r := by simp [Live, installed, installedFrom]
  next := rfl
  fallback := rfl
  noCache := rfl

theorem install (h : p.Follows fallback noCache calls) (application : Option String)
    (host : HostMatcher) (action : Decision) :
    (p.install application host action).2.Follows fallback noCache
      (calls ++ [.install application host action]) where
  ordered := by
    rw [installed_concat, ← h.next]
    exact h.ordered.append (.refl _)
  live r := by
    rw [live_install, ← h.live, ← h.next]
    simp [RulePolicy.install]
  next := by
    rw [installed_concat, List.length_append, Nat.add_right_comm, ← h.next]
    rfl
  fallback := h.fallback
  noCache := h.noCache

theorem remove (h : p.Follows fallback noCache calls) (id : Nat) :
    (p.remove id).2.Follows fallback noCache (calls ++ [.remove id]) where
  ordered := by
    rw [installed_concat_remove]
    exact List.filter_sublist.trans h.ordered
  live r := by
    rw [live_remove, ← h.live]
    simp [RulePolicy.remove]
  next := by
    rw [installed_concat_remove]
    exact h.next
  fallback := h.fallback
  noCache := h.noCache

theorem query (h : p.Follows fallback noCache calls) (name : String) (port : UInt16) (now : Nat) :
    p.Follows fallback noCache (calls ++ [.query name port now]) where
  ordered := by
    rw [installed_concat_query]
    exact h.ordered
  live r := by rw [live_query, h.live]
  next := by
    rw [installed_concat_query]
    exact h.next
  fallback := h.fallback
  noCache := h.noCache

theorem increasing (h : p.Follows fallback noCache calls) :
    p.rules.Pairwise fun r s => r.id < s.id :=
  (increasing_installed calls).sublist h.ordered

theorem removed_iff (h : p.Follows fallback noCache calls) (id : Nat) :
    (p.remove id).1 = true ↔ (∃ r ∈ installed calls, r.id = id) ∧ ¬Withdrawn calls id := by
  rw [← exists_live_iff]
  simp only [← h.live, RulePolicy.remove, bne_iff_ne, ne_eq, eq_comm (a := p.rules.length),
    List.length_filter_eq_length_iff]
  simp

/-- The first rule in the list that applies to a host is the one with the least number. -/
theorem elects_decide [Text.Covering] (h : p.Follows fallback noCache calls)
    (application host : String) :
    Elects fallback calls application host (p.decide application host) := by
  rw [RulePolicy.decide]
  cases hfind : p.rules.find? (·.covers application host) with
  | none =>
      refine .inr ⟨fun r hr happlies => ?_, h.fallback⟩
      exact List.find?_eq_none.1 hfind r ((h.live r).2 hr) (Rule.covers_iff.2 happlies)
  | some r =>
      obtain ⟨hcovers, front, back, hsplit, hfront⟩ := List.find?_eq_some_iff_append.1 hfind
      have hmem : r ∈ p.rules := List.mem_of_find?_eq_some hfind
      refine .inl ⟨r, (h.live r).1 hmem, Rule.covers_iff.1 hcovers, rfl, fun r' hr' happlies => ?_⟩
      have hmem' := (h.live r').2 hr'
      have hincreasing := h.increasing
      rw [hsplit] at hmem' hincreasing
      rcases List.mem_append.1 hmem' with hbefore | hbehind
      · have huncovered := hfront r' hbefore
        simp [Rule.covers_iff.2 happlies] at huncovered
      · rcases List.mem_cons.1 hbehind with rfl | hbehind
        · exact Nat.le_refl _
        · obtain ⟨-, hordered, -⟩ := List.pairwise_append.1 hincreasing
          exact Nat.le_of_lt ((List.pairwise_cons.1 hordered).1 r' hbehind)

end Follows

/-- A history decides in one way only, since no two rules have the same number. -/
theorem Elects.unique [Text.Covering] {fallback d d' : Decision} {calls : List Call}
    {application host : String} (h : Elects fallback calls application host d)
    (h' : Elects fallback calls application host d') : d = d' := by
  rcases h with ⟨r, hlive, happlies, rfl, hleast⟩ | ⟨hnone, rfl⟩
  · rcases h' with ⟨r', hlive', happlies', rfl, hleast'⟩ | ⟨hnone, -⟩
    · have hid := Nat.le_antisymm (hleast r' hlive' happlies') (hleast' r hlive happlies)
      rw [eq_of_id_eq hlive.1 hlive'.1 hid]
    · exact absurd happlies (hnone r hlive)
  · rcases h' with ⟨r', hlive', happlies', -⟩ | ⟨-, rfl⟩
    · exact absurd happlies' (hnone r' hlive')
    · rfl

theorem elects_of_least [Text.Covering] (fallback : Decision) {calls : List Call}
    {application host : String} {r : Rule} (hinstalled : r ∈ installed calls)
    (hkept : .remove r.id ∉ calls) (happlies : r.Applies application host)
    (hleast : ∀ r' ∈ installed calls, r'.Applies application host →
      r.id ≤ r'.id ∨ Withdrawn calls r'.id) :
    Elects fallback calls application host r.action := by
  refine .inl ⟨r, ⟨hinstalled, fun h => hkept h.mem⟩, happlies, rfl, fun r' hlive happlies' => ?_⟩
  exact (hleast r' hlive.1 happlies').resolve_right hlive.2

/-- Everything that may decide can be carried out. -/
def AllUsable (fallback : Decision) (calls : List Call) : Prop :=
  fallback.Usable ∧
    ∀ application host action, .install application host action ∈ calls → action.Usable

theorem AllUsable.mono {fallback : Decision} {calls more : List Call}
    (h : AllUsable fallback more) (hsub : calls ⊆ more) : AllUsable fallback calls :=
  ⟨h.1, fun application host action hcall => h.2 application host action (hsub hcall)⟩

theorem usable_of_mem_installedFrom {id : Nat} {calls : List Call} {r : Rule}
    (h : ∀ application host action, .install application host action ∈ calls → action.Usable)
    (hr : r ∈ installedFrom id calls) : r.action.Usable := by
  induction calls generalizing id with
  | nil => cases hr
  | cons call calls ih =>
      have hrest : ∀ application host action,
          .install application host action ∈ calls → action.Usable :=
        fun application host action hcall => h _ _ _ (List.mem_cons_of_mem call hcall)
      cases call with
      | install application host action =>
          rcases List.mem_cons.1 hr with rfl | hr
          · exact h _ _ _ List.mem_cons_self
          · exact ih hrest hr
      | remove id => exact ih hrest hr
      | query name port now => exact ih hrest hr

theorem Follows.usable_decide [Text.Covering] {p : RulePolicy} {fallback : Decision}
    {noCache : Bool} {calls : List Call} (h : p.Follows fallback noCache calls)
    (husable : AllUsable fallback calls) (application host : String) :
    (p.decide application host).Usable := by
  rw [RulePolicy.decide]
  cases hfind : p.rules.find? (·.covers application host) with
  | none => exact h.fallback ▸ husable.1
  | some r =>
      have hlive := (h.live r).1 (List.mem_of_find?_eq_some hfind)
      exact usable_of_mem_installedFrom husable.2 hlive.1

/-- A rule policy in use, with the cache that asks it and the journal the cache reports to. -/
structure Desk where
  policy : RulePolicy
  cache : DecisionCache
  journal : Journal

namespace Desk

def new (application : String) (fallback : Decision) (noCache : Bool) (journal : Journal) :
    Desk where
  policy := { fallback, noCache }
  cache := { application }
  journal

variable [Text.Covering]

def serve (d : Desk) : Call → Answer × Desk
  | .install application host action =>
      let (id, policy) := d.policy.install application host action
      (.installed id, { d with policy })
  | .remove id =>
      let (found, policy) := d.policy.remove id
      (.removed found, { d with policy })
  | .query name port now =>
      let o := d.cache.query d.policy d.journal now name port
      (.decided o.decision, ⟨o.policy, o.cache, o.journal⟩)

def after (d : Desk) (calls : List Call) : Desk := (runAll serve d calls).2

theorem after_concat (d : Desk) (calls : List Call) (call : Call) :
    d.after (calls ++ [call]) = ((d.after calls).serve call).2 := runAll_concat serve d calls call

open DecisionCache in
/-- An entry decides, or else the rules do, and then their decision becomes the entry unless they
forbid it. -/
theorem serve_query (d : Desk) {name : String} {port : UInt16} (now : Nat) (hname : name ≠ "")
    (hport : port ≠ 0) (husable : (d.policy.decide d.cache.application name).Usable) :
    let decision := d.cache.entries[key name port]?.getD
      (d.policy.decide d.cache.application name)
    let r := d.serve (.query name port now)
    r.1 = .decided decision ∧ r.2.policy = d.policy ∧
      r.2.cache.application = d.cache.application ∧
      ∀ k, r.2.cache.entries[k]? =
        if key name port = k ∧ d.policy.noCache = false then some decision
        else d.cache.entries[k]? := by
  cases hentry : d.cache.entries[key name port]? with
  | some found =>
      simp only [serve, query_of_hit _ _ _ _ hname hport hentry, Option.getD_some, true_and]
      intro k
      split
      · next h => rw [← h.1, hentry]
      · rfl
  | none =>
      have hsettle := settle_read { d.cache with misses := d.cache.misses + 1 } d.journal now name
        port (.ok (.ofDecision (d.policy.decide d.cache.application name) d.policy.noCache))
      rw [PolicyAnswer.meaning_ofDecision husable, PolicyAnswer.storable_ofDecision husable]
        at hsettle
      obtain ⟨hdecision, happ, hkept, hdropped⟩ := hsettle
      simp only [serve, query_of_miss _ _ _ _ hname hport hentry, Option.getD_none]
      refine ⟨congrArg Answer.decided hdecision, rfl, happ, fun k => ?_⟩
      by_cases hkeep : d.policy.noCache = false
      · refine (congrArg (·[k]?) (hkept hkeep)).trans ?_
        simp only [Std.HashMap.getElem?_insert, beq_iff_eq, hkeep, and_true]
      · rw [if_neg fun h => hkeep h.2]
        exact congrArg (·[k]?) (hdropped hkeep)

end Desk

theorem asks_query {name name' : String} {port port' : UInt16} {now : Nat} :
    (Call.query name port now).asks name' port' = true ↔ name = name' ∧ port = port' := by
  simp [Call.asks]

section BeforeFirst

variable {calls : List Call} {name : String} {port : UInt16}

theorem beforeFirst_of_asked (h : calls.any (·.asks name port) = true) (more : List Call) :
    beforeFirst (calls ++ more) name port = beforeFirst calls name port := by
  obtain ⟨call, hcall, hasks⟩ := List.any_eq_true.1 h
  rw [beforeFirst, List.takeWhile_append, if_neg, beforeFirst]
  intro hlength
  have hall := (List.takeWhile_prefix _).eq_of_length hlength
  have hnot := List.takeWhile_eq_self_iff.1 hall call hcall
  rw [hasks] at hnot
  cases hnot

theorem beforeFirst_of_not_asked (h : calls.any (·.asks name port) = false) :
    beforeFirst calls name port = calls := by
  rw [beforeFirst, List.takeWhile_eq_self_iff]
  intro call hcall
  rw [List.any_eq_false] at h
  simpa using h call hcall

end BeforeFirst

section Recalled

variable [Text.Covering]

/-- The entry a history leaves for a destination: how it was decided when it was first asked
about. -/
def Desk.recalled (start : Desk) (calls : List Call) (name : String) (port : UInt16) :
    Option Decision :=
  if start.policy.noCache = false ∧ calls.any (·.asks name port) then
    some ((start.after (beforeFirst calls name port)).policy.decide start.cache.application name)
  else none

theorem recalled_concat_of_not_asks (start : Desk) {calls : List Call} {call : Call} {name : String}
    {port : UInt16} (h : call.asks name port = false) :
    start.recalled (calls ++ [call]) name port = start.recalled calls name port := by
  have hany : (calls ++ [call]).any (·.asks name port) = calls.any (·.asks name port) := by
    rw [List.any_append, List.any_cons, h, List.any_nil, Bool.or_false, Bool.or_false]
  rw [Desk.recalled, Desk.recalled, hany]
  split
  · next hasked => rw [beforeFirst_of_asked hasked.2]
  · rfl

theorem recalled_concat_of_asks (start : Desk) {calls : List Call} {call : Call} {name : String}
    {port : UInt16} (h : call.asks name port = true) (hkeep : start.policy.noCache = false) :
    start.recalled (calls ++ [call]) name port =
      some ((start.recalled calls name port).getD
        ((start.after calls).policy.decide start.cache.application name)) := by
  have hany : (calls ++ [call]).any (·.asks name port) = true := by
    rw [List.any_append, List.any_cons, h, Bool.true_or, Bool.or_true]
  rw [Desk.recalled, if_pos ⟨hkeep, hany⟩, Desk.recalled]
  cases hasked : calls.any (·.asks name port) with
  | true => rw [beforeFirst_of_asked hasked, if_pos ⟨hkeep, rfl⟩, Option.getD_some]
  | false =>
      have hfirst : beforeFirst (calls ++ [call]) name port = calls := by
        rw [beforeFirst, List.takeWhile_append, ← beforeFirst, beforeFirst_of_not_asked hasked,
          if_pos rfl, List.takeWhile_cons, h]
        exact List.append_nil calls
      rw [hfirst, if_neg (by simp), Option.getD_none]

/-- A question adds an entry for its destination, and changes no other. -/
theorem recalled_concat_query (start : Desk) (calls : List Call) (name name' : String)
    (port port' : UInt16) (now : Nat) :
    start.recalled (calls ++ [.query name port now]) name' port' =
      if DecisionCache.key name port = DecisionCache.key name' port' ∧
          start.policy.noCache = false then
        some ((start.recalled calls name port).getD
          ((start.after calls).policy.decide start.cache.application name))
      else start.recalled calls name' port' := by
  by_cases hsame : name = name' ∧ port = port'
  · obtain ⟨rfl, rfl⟩ := hsame
    by_cases hkeep : start.policy.noCache = false
    · rw [if_pos ⟨rfl, hkeep⟩, recalled_concat_of_asks start (asks_query.2 ⟨rfl, rfl⟩) hkeep]
    · rw [if_neg fun hkept => hkeep hkept.2, Desk.recalled, Desk.recalled,
        if_neg fun hkept => hkeep hkept.1, if_neg fun hkept => hkeep hkept.1]
  · have hother : (Call.query name port now).asks name' port' = false :=
      Bool.eq_false_iff.2 fun hasks => hsame (asks_query.1 hasks)
    rw [recalled_concat_of_not_asks start hother, if_neg]
    exact fun hkey => hsame (DecisionCache.key_injective hkey.1)

/-- A desk after a history: the rules are those of the history, the entries those it recalls. -/
structure Desk.Holds (start d : Desk) (calls : List Call) : Prop where
  follows : d.policy.Follows start.policy.fallback start.policy.noCache calls
  application : d.cache.application = start.cache.application
  entry : ∀ name port, name ≠ "" → port ≠ 0 →
    d.cache.entries[DecisionCache.key name port]? = start.recalled calls name port

theorem Desk.Holds.serve {start : Desk} {calls : List Call}
    (h : start.Holds (start.after calls) calls) (husable : AllUsable start.policy.fallback calls)
    (call : Call) : start.Holds (start.after (calls ++ [call])) (calls ++ [call]) := by
  rw [start.after_concat]
  cases call with
  | install application host action =>
      have hfollows := h.follows.install application host action
      refine ⟨hfollows, h.application, fun name port hname hport => ?_⟩
      rw [recalled_concat_of_not_asks start rfl]
      exact h.entry name port hname hport
  | remove id =>
      refine ⟨h.follows.remove id, h.application, fun name port hname hport => ?_⟩
      rw [recalled_concat_of_not_asks start rfl]
      exact h.entry name port hname hport
  | query name port now =>
      by_cases htrivial : name = "" ∨ port = 0
      · have hsame : ((start.after calls).serve (.query name port now)).2 = start.after calls := by
          simp only [Desk.serve, DecisionCache.query_of_trivial _ _ _ _ htrivial]
        rw [hsame]
        refine ⟨h.follows.query name port now, h.application, fun name' port' hname hport => ?_⟩
        rw [recalled_concat_of_not_asks, h.entry name' port' hname hport]
        refine Bool.eq_false_iff.2 fun hasks => ?_
        obtain ⟨rfl, rfl⟩ := asks_query.1 hasks
        exact htrivial.elim hname hport
      · obtain ⟨hname, hport⟩ := not_or.1 htrivial
        obtain ⟨-, hpolicy, happ, hentries⟩ := (start.after calls).serve_query now hname hport
          (h.follows.usable_decide husable _ _)
        refine ⟨?_, happ.trans h.application, fun name' port' hname' hport' => ?_⟩
        · rw [hpolicy]
          exact h.follows.query name port now
        rw [hentries, recalled_concat_query, h.follows.noCache, h.application,
          h.entry name port hname hport, h.entry name' port' hname' hport']

theorem holds_after (application : String) (fallback : Decision) (noCache : Bool)
    (journal : Journal) {calls : List Call} (h : AllUsable fallback calls) :
    let start := Desk.new application fallback noCache journal
    start.Holds (start.after calls) calls := by
  intro start
  induction calls using List.reverseRecOn with
  | nil =>
      refine ⟨.new fallback noCache, rfl, fun name port _ _ => ?_⟩
      simp [Desk.after, runAll, start, Desk.new, Desk.recalled]
  | append_singleton calls call ih =>
      have hbefore := h.mono (List.subset_append_left calls [call])
      exact (ih hbefore).serve hbefore call

theorem elects_recalled (application : String) (fallback : Decision) (noCache : Bool)
    (journal : Journal) {calls : List Call} (h : AllUsable fallback calls) (name : String)
    (port : UInt16) :
    let start := Desk.new application fallback noCache journal
    Elects fallback (if noCache then calls else beforeFirst calls name port) application name
      ((start.recalled calls name port).getD
        ((start.after calls).policy.decide application name)) := by
  intro start
  have hnow := (holds_after application fallback noCache journal h).follows
  have hsub : beforeFirst calls name port ⊆ calls := (List.takeWhile_prefix _).subset
  have hfirst := (holds_after application fallback noCache journal (h.mono hsub)).follows
  cases noCache with
  | true =>
      have hnone : start.recalled calls name port = none := if_neg (by simp [start, Desk.new])
      rw [hnone]
      exact hnow.elects_decide application name
  | false =>
      cases hasked : calls.any (·.asks name port) with
      | true =>
          have hsome : start.recalled calls name port = some _ := if_pos ⟨rfl, hasked⟩
          rw [hsome]
          exact hfirst.elects_decide application name
      | false =>
          have hnone : start.recalled calls name port = none := if_neg (by simp [hasked])
          rw [hnone, beforeFirst_of_not_asked hasked]
          exact hnow.elects_decide application name

/-- After any run of calls the rules are the installed ones without the withdrawn, in the order of
their installation, under numbers that grow. An installation gets the next number, a removal finds
exactly what was installed and not withdrawn, and a question about a name and a port is decided by
the first of the live rules whose matchers both accept, those of now or, where answers are kept,
those of the first such question. What patterns cover may be anything. -/
theorem after_decides_by_history (application : String) (fallback : Decision) (noCache : Bool)
    (journal : Journal) (calls : List Call) (husable : AllUsable fallback calls) :
    let d := (Desk.new application fallback noCache journal).after calls
    d.policy.rules.Sublist (installed calls) ∧
      (∀ r, r ∈ d.policy.rules ↔ Live calls r) ∧
      (d.policy.rules.Pairwise fun r s => r.id < s.id) ∧
      (∀ only host action, (d.serve (.install only host action)).1 =
        .installed ((installed calls).length + 1)) ∧
      (∀ id, ∃ found, (d.serve (.remove id)).1 = .removed found ∧
        (found = true ↔ (∃ r ∈ installed calls, r.id = id) ∧ ¬Withdrawn calls id)) ∧
      ∀ name port now, name ≠ "" → port ≠ 0 → ∃ decision,
        (d.serve (.query name port now)).1 = .decided decision ∧
          Elects fallback (if noCache then calls else beforeFirst calls name port) application name
            decision := by
  intro d
  have h := holds_after application fallback noCache journal husable
  refine ⟨h.follows.ordered, h.follows.live, h.follows.increasing, fun only host action => ?_,
    fun id => ⟨_, rfl, h.follows.removed_iff id⟩, fun name port now hname hport => ?_⟩
  · exact congrArg Answer.installed h.follows.next
  · have hdecide := h.follows.usable_decide husable d.cache.application name
    refine ⟨_, (d.serve_query now hname hport hdecide).1, ?_⟩
    rw [h.entry name port hname hport, h.application]
    exact elects_recalled application fallback noCache journal husable name port

end Recalled

/-- Four rules for a destination that is asked about before the third of them is removed. The first
rule is for other applications, and the second for other hosts. -/
def crowdedCalls : List Call := [
  .install (some "other*") (.ofPattern "*.test") (.socks5 ⟨.of 10 0 0 1, 1080⟩),
  .install (some "app*") (.ofPattern "*.example") (.socks5 ⟨.of 10 0 0 2, 1080⟩),
  .install (some "a?p") (.ofPattern "*.A.Test") (.socks5 ⟨.of 10 0 0 3, 1080⟩),
  .install none (.ofDomain "test") (.socks5 ⟨.of 10 0 0 4, 1080⟩),
  .query "www.a.test" 443 0,
  .remove 3]

theorem usable_crowdedCalls : AllUsable .direct crowdedCalls := by
  refine ⟨trivial, fun only host action hcall => ?_⟩
  simp only [crowdedCalls, List.mem_cons, Call.install.injEq, reduceCtorEq, List.not_mem_nil,
    or_false] at hcall
  rcases hcall with ⟨-, -, rfl⟩ | ⟨-, -, rfl⟩ | ⟨-, -, rfl⟩ | ⟨-, -, rfl⟩ <;>
    exact (by decide : (1080 : UInt16) ≠ 0)

/-- About the port that was asked about before the third rule is still the one that decides. About
any other port it is the fourth. -/
theorem after_decides_by_history_crowded :
    let d := (Desk.new "app" .direct false { processId := 1 }).after crowdedCalls
    AllUsable .direct crowdedCalls ∧
      (d.serve (.query "www.a.test" 443 1)).1 = .decided (.socks5 ⟨.of 10 0 0 3, 1080⟩) ∧
      (d.serve (.query "www.a.test" 80 1)).1 = .decided (.socks5 ⟨.of 10 0 0 4, 1080⟩) := by
  intro d
  obtain ⟨-, -, -, -, -, hquery⟩ := after_decides_by_history "app" .direct false { processId := 1 }
    crowdedCalls usable_crowdedCalls
  have hcovering : ∀ r ∈ installed crowdedCalls, r.covers "app" "www.a.test" = true →
      r.id = 3 ∨ r.id = 4 := by decide +kernel
  let third : Rule := ⟨3, some (.ofText "a?p"), .ofPattern "*.A.Test", .socks5 ⟨.of 10 0 0 3, 1080⟩⟩
  let fourth : Rule := ⟨4, none, .ofDomain "test", .socks5 ⟨.of 10 0 0 4, 1080⟩⟩
  have hthird : third.Applies "app" "www.a.test" := Rule.covers_iff.1 (by decide +kernel)
  have hfourth : fourth.Applies "app" "www.a.test" := Rule.covers_iff.1 (by decide +kernel)
  refine ⟨usable_crowdedCalls, ?_, ?_⟩
  · have hkept : .remove 3 ∉ beforeFirst crowdedCalls "www.a.test" 443 := by
      simp [beforeFirst, crowdedCalls, Call.asks]
    have hfirst := elects_of_least .direct (r := third) (by decide +kernel) hkept hthird
      fun r hr happlies => by
        rcases hcovering r hr (Rule.covers_iff.2 happlies) with hid | hid
        · exact .inl (Nat.le_of_eq hid.symm)
        · exact .inl (hid ▸ Nat.le_succ 3)
    obtain ⟨decision, hanswer, helects⟩ := hquery "www.a.test" 443 1 (by decide) (by decide)
    exact hanswer.trans (congrArg Answer.decided (helects.unique hfirst))
  · have hkept : .remove 4 ∉ beforeFirst crowdedCalls "www.a.test" 80 := by
      simp [beforeFirst, crowdedCalls, Call.asks]
    have hwithdrawn : Withdrawn (beforeFirst crowdedCalls "www.a.test" 80) 3 :=
      ⟨crowdedCalls.take 5, [], rfl, third, by decide +kernel, rfl⟩
    have hnow := elects_of_least .direct (r := fourth) (by decide +kernel) hkept hfourth
      fun r hr happlies => by
        rcases hcovering r hr (Rule.covers_iff.2 happlies) with hid | hid
        · exact .inr (hid ▸ hwithdrawn)
        · exact .inl (Nat.le_of_eq hid.symm)
    obtain ⟨decision, hanswer, helects⟩ := hquery "www.a.test" 80 1 (by decide) (by decide)
    exact hanswer.trans (congrArg Answer.decided (helects.unique hnow))

end RulePolicy

end Egress
