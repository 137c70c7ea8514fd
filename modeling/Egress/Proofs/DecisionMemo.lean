import Egress.Proofs.Recorded
import Egress.Proofs.Run

/-!
A decision cache as a memory of answers by destination. Over any run of questions the engine is
asked about a destination until it gives an answer that may be kept; from then on that answer
decides, whatever is asked in between. No two destinations share an entry.
-/

namespace Egress

namespace PolicyAnswer

/-- An answer that may be kept: a direct connection or a usable proxy, and not forbidden to keep. -/
def Storable (answer : Except PolicyError PolicyAnswer) : Prop :=
  ∃ a, answer = .ok a ∧ a.noCache = false ∧
    (a.host = none ∨ ∃ host ip, a.host = some host ∧ Ipv4.read? (Text.trim host) = some ip ∧
      a.port ≠ 0)

/-- The decision an answer stands for. A failure or an unusable proxy means a direct connection. -/
def meaning (answer : Except PolicyError PolicyAnswer) : Decision :=
  match answer with
  | .error _ => .direct
  | .ok a =>
      match a.host.bind fun host => Ipv4.read? (Text.trim host) with
      | some ip => if a.port = 0 then .direct else .socks5 ⟨ip, a.port⟩
      | none => .direct

end PolicyAnswer

namespace DecisionCache

open PolicyAnswer

private theorem append_colon_inj {xs ys ds es : List Char} (hd : ':' ∉ ds) (he : ':' ∉ es)
    (h : xs ++ ':' :: ds = ys ++ ':' :: es) : xs = ys ∧ ds = es := by
  -- If one front were longer, its own colon would be among the other's digits.
  rcases List.append_eq_append_iff.1 h with ⟨zs, hys, hds⟩ | ⟨zs, hxs, hes⟩
  · cases zs with
    | nil => simp_all
    | cons z zs =>
        rw [List.cons_append, List.cons.injEq] at hds
        exact absurd (by simp [hds.2]) hd
  · cases zs with
    | nil => simp_all
    | cons z zs =>
        rw [List.cons_append, List.cons.injEq] at hes
        exact absurd (by simp [hes.2]) he

/-- A destination is filed under a text of its own, whatever colons and digits its name has. -/
theorem key_injective {name name' : String} {port port' : UInt16}
    (h : key name port = key name' port') : name = name' ∧ port = port' := by
  have hlist := congrArg String.toList h
  simp only [key, toString, String.toList_append, Nat.toList_repr] at hlist
  have hcolon (n : Nat) : ':' ∉ Nat.toDigits 10 n :=
    Text.notMem_toDigits (by decide) (by decide) (by decide) n
  obtain ⟨hname, hdigits⟩ := append_colon_inj (hcolon _) (hcolon _) (by simpa using hlist)
  have hport := congrArg (Nat.ofDigitChars 10 · 0) hdigits
  simp only [Nat.ofDigitChars_ten_toDigits] at hport
  exact ⟨String.toList_inj.1 hname, UInt16.toNat.inj hport⟩

theorem settle_read (c : DecisionCache) (journal : Journal) (now : Nat) (name : String)
    (port : UInt16) (answer : Except PolicyError PolicyAnswer) :
    let r := c.settle journal now name port (read answer)
    r.1 = meaning answer ∧ r.2.1.application = c.application ∧
      (Storable answer → r.2.1.entries = c.entries.insert (key name port) (meaning answer)) ∧
      (¬Storable answer → r.2.1.entries = c.entries) := by
  cases answer with
  | error e => simp [read, settle, meaning, Storable]
  | ok a =>
      obtain ⟨host, proxyPort, noCache⟩ := a
      cases host with
      | none => cases noCache <;> simp [read, settle, meaning, Storable]
      | some host =>
          cases hip : Ipv4.read? (Text.trim host) with
          | none => simp [read, settle, meaning, Storable, hip]
          | some ip =>
              by_cases hport : proxyPort = 0
              · simp [read, settle, meaning, Storable, hip, hport]
              · cases noCache <;> simp [read, settle, meaning, Storable, hip, hport]

section Query

variable {π : Type} [PolicyEngine π] (c : DecisionCache) (policy : π) (journal : Journal)
  (now : Nat) {name : String} {port : UInt16}

theorem query_of_trivial (h : name = "" ∨ port = 0) :
    c.query policy journal now name port = ⟨.direct, c, policy, journal⟩ := by
  have hq : name.isEmpty = true ∨ port = 0 := by simpa using h
  rw [query, if_pos hq]

theorem query_of_hit (hname : name ≠ "") (hport : port ≠ 0) {decision : Decision}
    (hhit : c.entries[key name port]? = some decision) :
    c.query policy journal now name port =
      ⟨decision, { c with hits := c.hits + 1 }, policy, journal⟩ := by
  have hq : ¬(name.isEmpty = true ∨ port = 0) := by simp [hname, hport]
  simp only [query, if_neg hq, hhit]

/-- A question that is neither trivial nor answered before is put to the engine, whose answer is
settled. -/
theorem query_of_miss (hname : name ≠ "") (hport : port ≠ 0)
    (hmiss : c.entries[key name port]? = none) :
    let asked := PolicyEngine.evaluate policy c.application name port
    let settled := { c with misses := c.misses + 1 }.settle journal now name port (read asked.1)
    c.query policy journal now name port = ⟨settled.1, settled.2.1, asked.2, settled.2.2⟩ := by
  have hq : ¬(name.isEmpty = true ∨ port = 0) := by simp [hname, hport]
  simp only [query, if_neg hq, hmiss]

end Query

structure Question where
  name : String
  port : UInt16
  now : Nat

/-- What came of a question: the calls the engine got meanwhile, and the decision. -/
structure Reply where
  name : String
  port : UInt16
  calls : List PolicyNote
  decision : Decision

/-- A cache in use, with the engine it asks and the journal it reports to. -/
structure Desk (π : Type) where
  cache : DecisionCache
  policy : RecordedPolicy π
  journal : Journal

/-- An earlier question about this destination got an answer that may be kept and means this. -/
def Stored (earlier : List Reply) (name : String) (port : UInt16) (decision : Decision) : Prop :=
  ∃ r ∈ earlier, r.name = name ∧ r.port = port ∧
    ∃ note ∈ r.calls, Storable note.answer ∧ meaning note.answer = decision

namespace Desk

variable {π : Type} [PolicyEngine π]

def new (engine : π) (application : String) (journal : Journal) : Desk π where
  cache := { application }
  policy := ⟨engine, []⟩
  journal

def ask (d : Desk π) (q : Question) : Reply × Desk π :=
  let o := d.cache.query d.policy d.journal q.now q.name q.port
  (⟨q.name, q.port, o.policy.notes.drop d.policy.notes.length, o.decision⟩,
    ⟨o.cache, o.policy, o.journal⟩)

/-- The engine's answer, were it asked now. -/
def fresh (d : Desk π) (q : Question) : Except PolicyError PolicyAnswer :=
  (PolicyEngine.evaluate d.policy.engine d.cache.application q.name q.port).1

theorem ask_of_trivial (d : Desk π) {q : Question} (h : q.name = "" ∨ q.port = 0) :
    d.ask q = (⟨q.name, q.port, [], .direct⟩, d) := by
  simp only [ask, query_of_trivial _ _ _ _ h, List.drop_length]

theorem ask_of_hit (d : Desk π) {q : Question} (hname : q.name ≠ "") (hport : q.port ≠ 0)
    {decision : Decision} (hhit : d.cache.entries[key q.name q.port]? = some decision) :
    d.ask q = (⟨q.name, q.port, [], decision⟩,
      { d with cache := { d.cache with hits := d.cache.hits + 1 } }) := by
  simp only [ask, query_of_hit _ _ _ _ hname hport hhit, List.drop_length]

/-- A question that is neither trivial nor answered before makes one call. -/
theorem ask_of_miss (d : Desk π) {q : Question} (hname : q.name ≠ "") (hport : q.port ≠ 0)
    (hmiss : d.cache.entries[key q.name q.port]? = none) :
    (d.ask q).1 = ⟨q.name, q.port, [⟨d.cache.application, q.name, q.port, d.fresh q⟩],
        meaning (d.fresh q)⟩ ∧
      (d.ask q).2.cache.application = d.cache.application ∧
      (Storable (d.fresh q) → (d.ask q).2.cache.entries =
        d.cache.entries.insert (key q.name q.port) (meaning (d.fresh q))) ∧
      (¬Storable (d.fresh q) → (d.ask q).2.cache.entries = d.cache.entries) := by
  obtain ⟨hdecision, happ, hkept, hdropped⟩ :=
    settle_read { d.cache with misses := d.cache.misses + 1 } d.journal q.now q.name q.port
      (d.fresh q)
  simp only [ask, query_of_miss _ _ _ _ hname hport hmiss]
  refine ⟨?_, happ, hkept, hdropped⟩
  rw [← hdecision]
  simp only [fresh, PolicyEngine.evaluate, List.drop_left]

/-- The entries are the decisions stored by earlier questions. -/
structure Remembers (d : Desk π) (application : String) (earlier : List Reply) : Prop where
  application : d.cache.application = application
  trivial : ∀ r ∈ earlier, r.name = "" ∨ r.port = 0 → r.calls = []
  entry : ∀ name port decision, d.cache.entries[key name port]? = some decision ↔
    Stored earlier name port decision

end Desk

theorem stored_concat {earlier : List Reply} {r : Reply} {name : String} {port : UInt16}
    {decision : Decision} : Stored (earlier ++ [r]) name port decision ↔
      Stored earlier name port decision ∨ Stored [r] name port decision := by
  simp only [Stored, List.mem_append, or_and_right, exists_or]

theorem not_stored_of_calls_nil {r : Reply} (h : r.calls = []) (name : String) (port : UInt16)
    (decision : Decision) : ¬Stored [r] name port decision := by
  simp [Stored, h]

namespace Desk

variable {π : Type} {d : Desk π} {application : String} {earlier : List Reply}

theorem Remembers.not_stored (h : d.Remembers application earlier) {name : String} {port : UInt16}
    (htrivial : name = "" ∨ port = 0) (decision : Decision) :
    ¬Stored earlier name port decision := by
  rintro ⟨r, hr, rfl, rfl, note, hnote, -⟩
  rw [h.trivial r hr htrivial] at hnote
  contradiction

theorem Remembers.concat (h : d.Remembers application earlier) {r : Reply} (hr : r.calls = []) :
    d.Remembers application (earlier ++ [r]) where
  application := h.application
  trivial r' hr' htrivial := by
    rcases List.mem_append.1 hr' with hold | hnew
    · exact h.trivial r' hold htrivial
    · rwa [List.mem_singleton.1 hnew]
  entry name port decision := by
    rw [stored_concat, or_iff_left (not_stored_of_calls_nil hr _ _ _)]
    exact h.entry name port decision

variable [PolicyEngine π]

theorem Remembers.ask (h : d.Remembers application earlier) (q : Question) :
    (d.ask q).2.Remembers application (earlier ++ [(d.ask q).1]) := by
  by_cases htrivial : q.name = "" ∨ q.port = 0
  · rw [ask_of_trivial d htrivial]
    exact h.concat rfl
  · obtain ⟨hname, hport⟩ := not_or.1 htrivial
    cases hentry : d.cache.entries[key q.name q.port]? with
    | some found =>
        have hcounted : Remembers { d with cache := { d.cache with hits := d.cache.hits + 1 } }
            application earlier := ⟨h.application, h.trivial, h.entry⟩
        rw [ask_of_hit d hname hport hentry]
        exact hcounted.concat rfl
    | none =>
        obtain ⟨hreply, happ, hkept, hdropped⟩ := ask_of_miss d hname hport hentry
        refine ⟨happ.trans h.application, ?_, fun name port decision => ?_⟩
        · intro r hr
          rcases List.mem_append.1 hr with hold | hnew
          · exact h.trivial r hold
          · rw [List.mem_singleton.1 hnew, hreply]
            exact fun hr => absurd hr htrivial
        rw [stored_concat, ← h.entry, hreply]
        by_cases hstorable : Storable (d.fresh q)
        · rw [hkept hstorable, Std.HashMap.getElem?_insert]
          by_cases hkey : key q.name q.port = key name port
          · obtain ⟨rfl, rfl⟩ := key_injective hkey
            simp [Stored, hstorable, hentry]
          · have hne : ¬(q.name = name ∧ q.port = port) := by
              rintro ⟨rfl, rfl⟩
              exact hkey rfl
            simp [Stored, hkey]
            grind
        · rw [hdropped hstorable]
          simp [Stored, hstorable]

theorem remembers_runAll (engine : π) (application : String) (journal : Journal)
    (questions : List Question) :
    (runAll ask (new engine application journal) questions).2.Remembers application
      (runAll ask (new engine application journal) questions).1 := by
  have hstart : (new engine application journal).Remembers application [] :=
    ⟨rfl, fun r hr => absurd hr List.not_mem_nil, fun name port decision => by simp [new, Stored]⟩
  have keeps (d : Desk π) (earlier : List Reply) (q : Question)
      (h : d.Remembers application earlier) := h.ask q
  exact runAll_history keeps hstart questions

/-- An entry stays as it is, whatever is asked. -/
theorem entries_ask (d : Desk π) (q : Question) {k : String} {decision : Decision}
    (h : d.cache.entries[k]? = some decision) :
    (d.ask q).2.cache.entries[k]? = some decision := by
  by_cases htrivial : q.name = "" ∨ q.port = 0
  · rwa [ask_of_trivial d htrivial]
  · obtain ⟨hname, hport⟩ := not_or.1 htrivial
    cases hentry : d.cache.entries[key q.name q.port]? with
    | some found => rwa [ask_of_hit d hname hport hentry]
    | none =>
        obtain ⟨-, -, hkept, hdropped⟩ := ask_of_miss d hname hport hentry
        by_cases hstorable : Storable (d.fresh q)
        · have hne : key q.name q.port ≠ k := by
            rintro rfl
            rw [hentry] at h
            contradiction
          rw [hkept hstorable, Std.HashMap.getElem?_insert, if_neg (by simpa using hne)]
          exact h
        · rwa [hdropped hstorable]

/-- After any run of questions, the engine is asked about a destination once if it has a name and a
port and no earlier answer about exactly this destination was stored, and else not at all. The
stored answer decides, or else the new one; entries never change and are never shared. -/
theorem runAll_ask_memoizes (engine : π) (application : String) (journal : Journal)
    (questions : List Question) (q : Question) :
    let run := runAll ask (new engine application journal) questions
    let d := run.2
    let r := (d.ask q).1
    let d' := (d.ask q).2
    let answer := d.fresh q
    let asks := q.name ≠ "" ∧ q.port ≠ 0 ∧ ∀ decision, ¬Stored run.1 q.name q.port decision
    (asks → r.calls = [⟨application, q.name, q.port, answer⟩] ∧ r.decision = meaning answer) ∧
      (¬asks → r.calls = []) ∧
      (q.name = "" ∨ q.port = 0 → r.decision = .direct) ∧
      (∀ decision, Stored run.1 q.name q.port decision → r.decision = decision) ∧
      (∀ name port decision, d'.cache.entries[key name port]? = some decision ↔
        Stored (run.1 ++ [r]) name port decision) ∧
      (∀ (k : String) decision, d.cache.entries[k]? = some decision →
        d'.cache.entries[k]? = some decision) ∧
      (∀ name name' port port', key name port = key name' port' → name = name' ∧ port = port') ∧
      d.cache.query d.policy.engine d.journal q.now q.name q.port =
        ⟨r.decision, d'.cache, d'.policy.engine, d'.journal⟩ := by
  intro run d r d' answer asks
  have h : d.Remembers application run.1 := remembers_runAll engine application journal questions
  refine ⟨?_, ?_, ?_, ?_, (h.ask q).entry, fun k decision => d.entries_ask q,
    fun _ _ _ _ => key_injective, query_engine ..⟩
  · rintro ⟨hname, hport, hnew⟩
    have hmiss : d.cache.entries[key q.name q.port]? = none :=
      Option.eq_none_iff_forall_ne_some.2 fun decision hd => hnew decision ((h.entry ..).1 hd)
    have hreply : r = ⟨q.name, q.port, [⟨d.cache.application, q.name, q.port, answer⟩],
      meaning answer⟩ := (ask_of_miss d hname hport hmiss).1
    rw [hreply, h.application]
    exact ⟨rfl, rfl⟩
  · intro hnot
    by_cases htrivial : q.name = "" ∨ q.port = 0
    · exact congrArg (·.1.calls) (ask_of_trivial d htrivial)
    · obtain ⟨hname, hport⟩ := not_or.1 htrivial
      cases hentry : d.cache.entries[key q.name q.port]? with
      | some decision => exact congrArg (·.1.calls) (ask_of_hit d hname hport hentry)
      | none =>
          refine absurd ⟨hname, hport, fun decision hstored => ?_⟩ hnot
          rw [(h.entry ..).2 hstored] at hentry
          contradiction
  · intro htrivial
    exact congrArg (·.1.decision) (ask_of_trivial d htrivial)
  · intro decision hstored
    have htrivial : ¬(q.name = "" ∨ q.port = 0) := fun ht => h.not_stored ht decision hstored
    obtain ⟨hname, hport⟩ := not_or.1 htrivial
    exact congrArg (·.1.decision) (ask_of_hit d hname hport ((h.entry ..).2 hstored))

end Desk

end DecisionCache

end Egress
