import Egress.Proofs.DomainLabels

/-!
Rules and the case of hosts. Each kind of matcher has its own way of not minding it: patterns are
compared with the folded host, domains are folded on both sides, and dots and digits have no case.
So the decision of a rule policy is a function of the folded host, whatever the rules are.
-/

namespace Egress

namespace Text

theorem digitValue_toLower (c : Char) : digitValue c.toLower = digitValue c := by
  have hle (a b : Char) : a ≤ b ↔ a.toNat ≤ b.toNat := Iff.rfl
  have h0 : '0'.toNat = 48 := rfl
  have h9 : '9'.toNat = 57 := rfl
  have ha : 'a'.toNat = 97 := rfl
  have hz : 'z'.toNat = 122 := rfl
  have hA : 'A'.toNat = 65 := rfl
  have hZ : 'Z'.toNat = 90 := rfl
  simp only [digitValue, hle, toNat_toLower, h0, h9, ha, hz, hA, hZ]
  split <;> grind

theorem digits?_foldCase (base acc : Nat) (cs : List Char) :
    digits? base acc (foldCase cs) = digits? base acc cs := by
  induction cs generalizing acc with
  | nil => rfl
  | cons c cs ih =>
      have hdigit : digit? base c.toLower = digit? base c := by
        rw [digit?, digit?, digitValue_toLower]
      simp only [foldCase, List.map_cons, digits?, hdigit]
      cases digit? base c with
      | none => rfl
      | some d => exact ih (acc * base + d)

theorem numeral?_foldCase (base : Nat) (cs : List Char) :
    numeral? base (foldCase cs) = numeral? base cs := by
  have hempty : (foldCase cs).isEmpty = cs.isEmpty := List.isEmpty_map
  rw [numeral?, numeral?, hempty, digits?_foldCase]

end Text

namespace Ipv4

theorem octet?_foldCase (cs : List Char) : octet? (Text.foldCase cs) = octet? cs := by
  have hlength : (Text.foldCase cs).length = cs.length := List.length_map ..
  have hhead : (Text.foldCase cs).head? = some '0' ↔ cs.head? = some '0' := by
    rw [Text.foldCase, List.head?_map, Option.map_eq_some_iff]
    simp [Text.toLower_eq_iff (d := '0') (by decide)]
  simp only [octet?, hlength, Text.numeral?_foldCase, ne_eq, hhead]

theorem ofChars?_foldCase (cs : List Char) : ofChars? (Text.foldCase cs) = ofChars? cs := by
  have hpieces : Text.pieces '.' (Text.foldCase cs) =
      (Text.pieces '.' cs).map Text.foldCase :=
    Text.pieces_map (fun _ => Text.toLower_eq_dot) cs
  rw [ofChars?, ofChars?, hpieces]
  match Text.pieces '.' cs with
  | [a, b, c, d] => simp only [List.map_cons, List.map_nil, octet?_foldCase]
  | [] | [_] | [_, _] | [_, _, _] | _ :: _ :: _ :: _ :: _ :: _ => rfl

theorem read?_lower (host : String) : read? (Text.lower host) = read? host := by
  rw [read?, Text.toList_lower, ofChars?_foldCase]
  rfl

end Ipv4

namespace HostName

theorem isPlain_lower (host : String) : isPlain (Text.lower host) = isPlain host := by
  have hdot : '.' ∈ Text.foldCase host.toList ↔ '.' ∈ host.toList := by
    simp only [Text.foldCase, List.mem_map, Text.toLower_eq_dot, exists_eq_right]
  rw [isPlain, isPlain, Text.toList_lower]
  simp only [List.contains_eq_mem, hdot]

theorem trimmed_lower (name : String) : trimmed (Text.lower name) = trimmed name := by
  rw [trimmed_eq, Text.toList_lower, undotted_foldCase]
  exact Text.foldCase_foldCase _

theorem isInDomain_lower (host domain : String) :
    isInDomain (Text.lower host) domain = isInDomain host domain := by
  simp only [isInDomain, trimmed_lower]

end HostName

theorem HostMatcher.covers_lower [Text.Covering] (m : HostMatcher) (host : String) :
    m.covers (Text.lower host) = m.covers host := by
  cases m with
  | any => rfl
  | plain => exact HostName.isPlain_lower host
  | pattern w =>
      have hfold : Text.lower (Text.lower host) = Text.lower host := by
        rw [Text.lower, Text.toList_lower, Text.foldCase_foldCase]
        rfl
      rw [covers, covers, hfold]
  | domain d => exact HostName.isInDomain_lower host d
  | network net mask => rw [covers, covers, Ipv4.read?_lower]

namespace RulePolicy

theorem decide_lower [Text.Covering] (p : RulePolicy) (application host : String) :
    p.decide application (Text.lower host) = p.decide application host := by
  simp only [decide, Rule.covers, HostMatcher.covers_lower]

/-- Hosts that differ in the case of ASCII letters only are decided alike under any rules, whatever
patterns cover, and an engine of these rules gives the same answer about both. -/
theorem decide_ignores_case [Text.Covering] (p : RulePolicy) (application : String)
    {host other : String} (h : Text.lower host = Text.lower other) :
    p.decide application host = p.decide application other ∧
      ∀ port, (PolicyEngine.evaluate p application host port).1 =
        (PolicyEngine.evaluate p application other port).1 := by
  have hdecide : p.decide application host = p.decide application other := by
    rw [← p.decide_lower, h, p.decide_lower]
  have hanswer (host : String) (port : UInt16) :
      (PolicyEngine.evaluate p application host port).1 =
        .ok (.ofDecision (p.decide application host) p.noCache) := rfl
  exact ⟨hdecide, fun port => by rw [hanswer, hanswer, hdecide]⟩

/-- The rule for the domain decides, whatever the case of the host and of its own domain. -/
theorem decide_ignores_case_domain :
    let proxied : Decision := .socks5 ⟨.of 10 0 0 1, 1080⟩
    let p := (((({} : RulePolicy).install (some "app*") (.ofPattern "*.Corp.test") .direct).2.install
      none .plain .direct).2.install none (.ofDomain ".Example.com") proxied).2
    Text.lower "WWW.Example.COM." = Text.lower "www.example.com." ∧
      p.decide "app" "WWW.Example.COM." = proxied := by
  intro proxied p
  have hfolded : Text.lower "WWW.Example.COM." = Text.lower "www.example.com." := by decide
  have hlower : p.decide "app" "www.example.com." = proxied := by decide
  exact ⟨hfolded, (p.decide_ignores_case "app" hfolded).1.trans hlower⟩

end RulePolicy

end Egress
