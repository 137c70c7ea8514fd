import Egress.Policy.Basic
import Egress.Text.Character
import Egress.Text.Wildcard

/-!
A policy of ordered rules. The first rule whose application and host both match decides; if none
does, the fallback. Rules are numbered from 1 in the order of their installation and keep their
number when others are removed. Hosts are matched by a pattern, by a network, or by their dots:
names without one, and names in a domain. What a pattern covers is up to the matcher the rules are
used with.
-/

namespace Egress

namespace HostName

def isPlain (host : String) : Bool := !host.toList.contains '.'

def level (host : String) : Nat := host.toList.count '.'

/-- A name without its trailing dots and without case. -/
def trimmed (name : String) : List Char :=
  Text.foldCase (Text.dropTrailing (· == '.') name.toList)

/-- Whether a text ends with another one, and what comes before it. -/
def beforeSuffix? (suffix cs : List Char) : Option (List Char) :=
  if suffix.isSuffixOf cs then some (cs.take (cs.length - suffix.length)) else none

/-- Whether a host is a domain or lies below it. Case and trailing dots make no difference, and
nothing lies in the empty domain. -/
def isInDomain (host domain : String) : Bool :=
  let h := trimmed host
  let d := trimmed domain
  if d.isEmpty then false
  else h == d || (beforeSuffix? d h).any fun head => head.getLast? == some '.'

end HostName

inductive HostMatcher
  | any
  | plain
  | pattern (w : Text.Wildcard)
  | domain (d : String)
  | network (network mask : Ipv4)
deriving DecidableEq, Repr

namespace HostMatcher

def ofPattern (pattern : String) : HostMatcher := .pattern (.ofText (Text.lower pattern))

/-- The domain may be written with leading dots. -/
def ofDomain (domain : String) : HostMatcher :=
  .domain (String.ofList (Text.foldCase (domain.toList.dropWhile (· == '.'))))

def covers [Text.Covering] (m : HostMatcher) (host : String) : Bool :=
  match m with
  | any => true
  | plain => HostName.isPlain host
  | pattern w => Text.Covering.covers w (Text.lower host)
  | domain d => HostName.isInDomain host d
  | network net mask => (Ipv4.read? host).any (Ipv4.agree mask · net)

end HostMatcher

structure Rule where
  id : Nat
  application : Option Text.Wildcard
  host : HostMatcher
  action : Decision
deriving DecidableEq, Repr

def Rule.covers [Text.Covering] (r : Rule) (application host : String) : Bool :=
  r.application.all (Text.Covering.covers · application) && r.host.covers host

structure RulePolicy where
  rules : List Rule := []
  nextId : Nat := 1
  fallback : Decision := .direct
  noCache : Bool := false
deriving DecidableEq, Repr

namespace RulePolicy

/-- Adds a rule behind all others and gives its number. -/
def install (p : RulePolicy) (application : Option String) (host : HostMatcher)
    (action : Decision) : Nat × RulePolicy :=
  let rule : Rule := { id := p.nextId, application := application.map .ofText, host, action }
  (p.nextId, { p with rules := p.rules ++ [rule], nextId := p.nextId + 1 })

def remove (p : RulePolicy) (id : Nat) : Bool × RulePolicy :=
  let kept := p.rules.filter (·.id != id)
  (p.rules.length != kept.length, { p with rules := kept })

def decide [Text.Covering] (p : RulePolicy) (application host : String) : Decision :=
  match p.rules.find? (·.covers application host) with
  | some rule => rule.action
  | none => p.fallback

instance [Text.Covering] : PolicyEngine RulePolicy where
  evaluate p application name _ :=
    (.ok (PolicyAnswer.ofDecision (p.decide application name) p.noCache), p)

end RulePolicy

end Egress
