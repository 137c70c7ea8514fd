import Egress.Proofs.AddressText
import Egress.Proofs.NamedDial

/-!
No two destinations share a decision. A destination is filed under its port and the name bound to
its address or, if it is no synthetic address, its text. Bound names are never numeric, every text
of an address is, and both a table of bindings and the text of addresses can be read backwards. So
a question about one destination reads and writes a single entry, and no other destination's.
-/

namespace Egress

namespace Exemptions

/-- What it takes for a name not to be exempt. -/
theorem coversName_eq_false {localName : Option String} {name : String} :
    coversName localName name = false ↔ name ≠ "" ∧ NumericHost.read? name = none ∧
      Text.sameFolded name "localhost" = false ∧ localName ≠ some name := by
  simp only [coversName, Bool.or_eq_false_iff, and_assoc, Option.isSome_eq_false_iff,
    Option.isNone_iff_eq_none, beq_eq_false_iff_ne]
  simp

end Exemptions

namespace Router

/-- The routers that calls lead to from a new one on a machine of this name, each call in a world of
its own. -/
inductive ReachableAt (localName : Option String) : Router → Prop
  | new (config : RouterConfig) : ReachableAt localName (new config)
  | call {π ρ : Type} [PolicyEngine π] [Resolver ρ] {r : Router} (h : ReachableAt localName r)
      (world : World π ρ) (hlocal : world.localName = localName) (call : Session.Call) :
      ReachableAt localName ((⟨r, world⟩ : Session π ρ).after call).router

theorem ReachableAt.reachable {localName : Option String} {r : Router}
    (h : r.ReachableAt localName) : r.Reachable := by
  induction h with
  | new config => exact .new config
  | call h world hlocal call ih => exact .call ih world call

/-- A name gets into the table only past the check that exempts it. -/
theorem ReachableAt.not_exempt {localName : Option String} {r : Router}
    (h : r.ReachableAt localName) :
    ∀ name ∈ r.table.slots, Exemptions.coversName localName name = false := by
  induction h with
  | new config => simp [Router.new, SyntheticTable.new]
  | call h world hlocal call ih =>
      rcases Session.table_after ⟨_, world⟩ call with hsame | ⟨bound, hcovers, hbind⟩
      · rw [hsame]
        exact ih
      · intro name hname
        rw [hbind] at hname
        cases SyntheticTable.mem_slots_bind hname with
        | inl hold => exact ih name hold
        | inr hnew => rw [hnew, ← hlocal, hcovers]

end Router

namespace DecisionCache

/-- The text an endpoint is filed under. -/
def keyFor (table : SyntheticTable) (e : Endpoint) : String := key (nameFor table e) e.port

/-- An endpoint that stands for something: a synthetic address is bound to a name. -/
def Live (table : SyntheticTable) (e : Endpoint) : Prop :=
  ∀ a, e.ip = .v4 a → table.isSynthetic a = true → ∃ name, table.nameOf? a = some name

theorem live_v4 {table : SyntheticTable} {a : Ipv4} {port : UInt16} :
    Live table (.new (.v4 a) port) ↔
      (table.isSynthetic a = true → ∃ name, table.nameOf? a = some name) := by
  constructor
  · intro h
    exact h a rfl
  · intro h b hb
    obtain rfl : a = b := IpAddr.v4.inj hb
    exact h

theorem nameFor_cases {table : SyntheticTable} {e : Endpoint} (h : Live table e) :
    (∃ a, e.ip = .v4 a ∧ table.nameOf? a = some (nameFor table e)) ∨
      nameFor table e = e.ip.text := by
  cases hip : e.ip with
  | v6 a => exact .inr (by simp only [nameFor, hip, IpAddr.text])
  | v4 a =>
      cases hin : table.isSynthetic a with
      | false => exact .inr (by simp [nameFor, hip, hin, IpAddr.text])
      | true =>
          obtain ⟨name, hname⟩ := h a hip hin
          exact .inl ⟨a, rfl, by rw [nameFor_named hip hname, hname]⟩

theorem nameFor_ne_empty {table : SyntheticTable} (hnames : ∀ a, table.nameOf? a ≠ some "")
    {e : Endpoint} (h : Live table e) : nameFor table e ≠ "" := by
  intro hempty
  rcases nameFor_cases h with ⟨a, -, hname⟩ | htext
  · exact hnames a (hname.trans (congrArg some hempty))
  · have hread := NumericHost.read?_text e.ip
    rw [← htext, hempty] at hread
    cases hread

/-- A name says which address it is of, as long as no bound name is numeric. -/
theorem ip_eq_of_nameFor_eq {table : SyntheticTable} {l : AllocationLog} (hm : table.Mirrors l)
    (hnumeric : ∀ a name, table.nameOf? a = some name → NumericHost.read? name = none)
    {e e' : Endpoint} (he : Live table e) (he' : Live table e')
    (h : nameFor table e = nameFor table e') : e.ip = e'.ip := by
  rcases nameFor_cases he with ⟨a, hip, hname⟩ | htext <;>
    rcases nameFor_cases he' with ⟨a', hip', hname'⟩ | htext'
  · obtain ⟨j, hj, rfl⟩ := hm.nameOf?_eq_some.1 hname
    obtain ⟨k, hk, rfl⟩ := hm.nameOf?_eq_some.1 hname'
    rw [← h] at hk
    rw [hip, hip', hm.holds_unique hj hk]
  · have hnot := hnumeric a _ hname
    rw [h, htext', NumericHost.read?_text] at hnot
    cases hnot
  · have hnot := hnumeric a' _ hname'
    rw [← h, htext, NumericHost.read?_text] at hnot
    cases hnot
  · have hread := NumericHost.read?_text e.ip
    rw [← htext, h, htext', NumericHost.read?_text] at hread
    exact (Option.some.inj hread).symm

theorem keyFor_injective {table : SyntheticTable} {l : AllocationLog} (hm : table.Mirrors l)
    (hnumeric : ∀ a name, table.nameOf? a = some name → NumericHost.read? name = none)
    {e e' : Endpoint} (he : Live table e) (he' : Live table e')
    (h : keyFor table e = keyFor table e') : e = e' := by
  obtain ⟨hname, hport⟩ := key_injective h
  obtain ⟨ip, port, hip⟩ := e
  obtain ⟨ip', port', hip'⟩ := e'
  obtain rfl : ip = ip' := ip_eq_of_nameFor_eq hm hnumeric he he' hname
  obtain rfl : port = port' := hport
  rfl

variable {π : Type} [PolicyEngine π] (c : DecisionCache) (policy : π) (journal : Journal)
  (now : Nat)

/-- No question changes what is filed under other texts, or the name that questions are asked in. -/
theorem query_frame (name : String) (port : UInt16) :
    (c.query policy journal now name port).cache.application = c.application ∧
      ∀ k, k ≠ key name port →
        (c.query policy journal now name port).cache.entries[k]? = c.entries[k]? := by
  by_cases htrivial : name = "" ∨ port = 0
  · rw [query_of_trivial c policy journal now htrivial]
    exact ⟨rfl, fun _ _ => rfl⟩
  · obtain ⟨hname, hport⟩ := not_or.1 htrivial
    cases hentry : c.entries[key name port]? with
    | some decision =>
        rw [query_of_hit c policy journal now hname hport hentry]
        exact ⟨rfl, fun _ _ => rfl⟩
    | none =>
        rw [query_of_miss c policy journal now hname hport hentry]
        obtain ⟨-, happ, hkept, hdropped⟩ := settle_read { c with misses := c.misses + 1 } journal
          now name port (PolicyEngine.evaluate policy c.application name port).1
        refine ⟨happ, ?_⟩
        intro k hk
        by_cases hstorable : PolicyAnswer.Storable
            (PolicyEngine.evaluate policy c.application name port).1
        · simp only [hkept hstorable, Std.HashMap.getElem?_insert, beq_iff_eq, if_neg hk.symm]
        · simp only [hdropped hstorable]

/-- Of all entries only the destination's own has a part in a decision. -/
theorem decision_query_congr {c d : DecisionCache} {name : String} {port : UInt16}
    (happ : c.application = d.application)
    (hentry : c.entries[key name port]? = d.entries[key name port]?) :
    (c.query policy journal now name port).decision =
      (d.query policy journal now name port).decision := by
  by_cases htrivial : name = "" ∨ port = 0
  · rw [query_of_trivial c policy journal now htrivial,
      query_of_trivial d policy journal now htrivial]
  · obtain ⟨hname, hport⟩ := not_or.1 htrivial
    cases hfound : d.entries[key name port]? with
    | some decision =>
        rw [hfound] at hentry
        rw [query_of_hit c policy journal now hname hport hentry,
          query_of_hit d policy journal now hname hport hfound]
    | none =>
        rw [hfound] at hentry
        rw [query_of_miss c policy journal now hname hport hentry,
          query_of_miss d policy journal now hname hport hfound, happ]
        exact (settle_read ..).1.trans (settle_read ..).1.symm

end DecisionCache

namespace Session

variable {π ρ : Type} [PolicyEngine π]

/-- A question about an endpoint reads the entry it is filed under and, if there is none, leaves one
for an answer that may be kept. -/
theorem askEndpoint_cases (s : Session π ρ) {e : Endpoint}
    (hname : DecisionCache.nameFor s.router.table e ≠ "") (hport : e.port ≠ 0) :
    let k := DecisionCache.keyFor s.router.table e
    let entries := s.router.cache.entries
    let asked := s.askEndpoint e
    let answer := (PolicyEngine.evaluate s.world.policy s.router.cache.application
      (DecisionCache.nameFor s.router.table e) e.port).1
    (∀ decision, entries[k]? = some decision →
      asked.1 = decision ∧ asked.2.router.cache.entries = entries) ∧
    (entries[k]? = none → asked.1 = PolicyAnswer.meaning answer ∧
      (PolicyAnswer.Storable answer →
        asked.2.router.cache.entries = entries.insert k (PolicyAnswer.meaning answer)) ∧
      (¬PolicyAnswer.Storable answer → asked.2.router.cache.entries = entries)) := by
  intro k entries asked answer
  refine ⟨?_, ?_⟩
  · intro decision hentry
    simp only [asked, askEndpoint, askName, DecisionCache.query_of_hit _ _ _ _ hname hport hentry]
    exact ⟨trivial, rfl⟩
  · intro hentry
    obtain ⟨hdecision, -, hkept, hdropped⟩ := DecisionCache.settle_read
      { s.router.cache with misses := s.router.cache.misses + 1 } s.world.journal s.world.now
      (DecisionCache.nameFor s.router.table e) e.port answer
    simp only [asked, askEndpoint, askName, DecisionCache.query_of_miss _ _ _ _ hname hport hentry]
    exact ⟨hdecision, hkept, hdropped⟩

/-- What is decided about one endpoint does not depend on whether another one was asked about
before, as long as the two are filed under different texts. -/
theorem askEndpoint_after {π' ρ' : Type} [PolicyEngine π'] (s : Session π ρ) (t : Session π' ρ')
    (hrouter : t.router = s.router) {e e' : Endpoint}
    (hkey : DecisionCache.keyFor s.router.table e ≠ DecisionCache.keyFor s.router.table e') :
    let after := (t.askEndpoint e').2.router
    after.cache.entries[DecisionCache.keyFor s.router.table e]? =
        s.router.cache.entries[DecisionCache.keyFor s.router.table e]? ∧
      ((⟨after, s.world⟩ : Session π ρ).askEndpoint e).1 = (s.askEndpoint e).1 := by
  intro after
  obtain ⟨happ, hframe⟩ := t.router.cache.query_frame t.world.policy t.world.journal t.world.now
    (DecisionCache.nameFor t.router.table e') e'.port
  rw [hrouter] at happ hframe
  have hentry : after.cache.entries[DecisionCache.keyFor s.router.table e]? =
      s.router.cache.entries[DecisionCache.keyFor s.router.table e]? := by
    simp only [after, askEndpoint, askName, hrouter]
    exact hframe _ hkey
  refine ⟨hentry, ?_⟩
  have htable : after.table = s.router.table := by
    rw [← hrouter]
    rfl
  simp only [askEndpoint, askName, htable]
  apply DecisionCache.decision_query_congr
  · simp only [after, askEndpoint, askName, hrouter]
    exact happ
  · exact hentry

end Session

namespace Router

open DecisionCache in
/-- On a machine of a fixed name, whatever is called, the table holds no name that is exempt: none
that is empty, numeric, `localhost`, or the machine's own. So endpoints that stand for something are
filed under different texts, each question reads and writes the entry of its own endpoint, and what
is decided about one endpoint has no part in what is decided about another. -/
theorem ReachableAt.keys_apart {localName : Option String} {r : Router}
    (h : r.ReachableAt localName) {π ρ π' ρ' : Type} [PolicyEngine π] [PolicyEngine π']
    (world : World π ρ) (world' : World π' ρ') :
    (∀ name, (name ∈ r.table.names ∨ ∃ a, r.table.nameOf? a = some name) →
      Exemptions.coversName localName name = false ∧ name ≠ "" ∧ NumericHost.read? name = none ∧
        Text.sameFolded name "localhost" = false ∧ localName ≠ some name) ∧
    (∀ e : Endpoint, Live r.table e → e.port ≠ 0 →
      let asked := (⟨r, world⟩ : Session π ρ).askEndpoint e
      let answer := (PolicyEngine.evaluate world.policy r.cache.application
        (nameFor r.table e) e.port).1
      (∀ decision, r.cache.entries[keyFor r.table e]? = some decision →
        asked.1 = decision ∧ asked.2.router.cache.entries = r.cache.entries) ∧
      (r.cache.entries[keyFor r.table e]? = none → asked.1 = PolicyAnswer.meaning answer ∧
        (PolicyAnswer.Storable answer → asked.2.router.cache.entries =
          r.cache.entries.insert (keyFor r.table e) (PolicyAnswer.meaning answer)) ∧
        (¬PolicyAnswer.Storable answer → asked.2.router.cache.entries = r.cache.entries))) ∧
    ∀ e e' : Endpoint, e ≠ e' → Live r.table e → Live r.table e' →
      let after := ((⟨r, world'⟩ : Session π' ρ').askEndpoint e').2.router
      keyFor r.table e ≠ keyFor r.table e' ∧
      after.cache.entries[keyFor r.table e]? = r.cache.entries[keyFor r.table e]? ∧
      ((⟨after, world⟩ : Session π ρ).askEndpoint e).1 =
        ((⟨r, world⟩ : Session π ρ).askEndpoint e).1 := by
  obtain ⟨l, hl⟩ := h.reachable.mirrors
  have hlive : ∀ name, (name ∈ r.table.names ∨ ∃ a, r.table.nameOf? a = some name) →
      Exemptions.coversName localName name = false := by
    intro name hname
    apply h.not_exempt
    rcases hname with hname | ⟨a, hname⟩
    · have hslot := Std.HashMap.getElem?_eq_some_getElem hname
      exact Array.mem_of_getElem? ((hl.holder name _).1 hslot)
    · exact SyntheticTable.mem_slots_of_nameOf? hname
  have hnumeric : ∀ a name, r.table.nameOf? a = some name → NumericHost.read? name = none := by
    intro a name hname
    exact (Exemptions.coversName_eq_false.1 (hlive name (.inr ⟨a, hname⟩))).2.1
  refine ⟨?_, ?_, ?_⟩
  · intro name hname
    exact ⟨hlive name hname, Exemptions.coversName_eq_false.1 (hlive name hname)⟩
  · intro e he hport
    have hname : nameFor r.table e ≠ "" := by
      apply nameFor_ne_empty _ he
      intro a hname
      exact (Exemptions.coversName_eq_false.1 (hlive "" (.inr ⟨a, hname⟩))).1 rfl
    exact Session.askEndpoint_cases ⟨r, world⟩ hname hport
  · intro e e' hne he he'
    have hkey : keyFor r.table e ≠ keyFor r.table e' := by
      intro heq
      exact hne (keyFor_injective hl hnumeric he he' heq)
    obtain ⟨hentry, hdecision⟩ := Session.askEndpoint_after ⟨r, world⟩ ⟨r, world'⟩ rfl hkey
    exact ⟨hkey, hentry, hdecision⟩

end Router

namespace Session

/-- The address that a name was bound to and an address outside the block. -/
theorem keys_apart_after_resolveName :
    let s := proxiedSession.after (.resolveName "b.test" none .application)
    DecisionCache.keyFor s.router.table (.new (.v4 (.of 240 0 0 1)) 443) ≠
      DecisionCache.keyFor s.router.table (.new (.v4 (.of 192 0 2 1)) 443) := by
  intro s
  have hreachable : s.router.ReachableAt proxiedSession.world.localName :=
    .call (.new _) proxiedSession.world rfl _
  have hbound : DecisionCache.Live s.router.table (.new (.v4 (.of 240 0 0 1)) 443) :=
    DecisionCache.live_v4.2 fun _ => ⟨"b.test", reverseName_after_resolveName⟩
  have houtside : DecisionCache.Live s.router.table (.new (.v4 (.of 192 0 2 1)) 443) := by
    have hblock : s.router.table.isSynthetic (.of 192 0 2 1) = false := by
      simp only [s, table_after_resolveName, SyntheticTable.isSynthetic,
        SyntheticTable.block_allocate]
      decide
    exact DecisionCache.live_v4.2 fun hin => absurd hin (by rw [hblock]; exact Bool.false_ne_true)
  exact ((hreachable.keys_apart s.world s.world).2.2 _ _ (by decide) hbound houtside).1

end Session

end Egress
