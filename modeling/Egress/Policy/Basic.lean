import Egress.SocketAddr.Basic

/-!
Policy: who decides which proxy a destination goes through. An engine may change its state with
every question, so its answers may depend on all earlier ones.
-/

namespace Egress

inductive PolicyError
  | missing
  | failed (reason : String)
deriving DecidableEq, Repr

def PolicyError.message : PolicyError → String
  | missing => "policy function missing"
  | failed reason => s!"policy evaluation failed: {reason}"

inductive Decision
  | direct
  | socks5 (proxy : SocketAddr4)
deriving DecidableEq, Repr, Inhabited

def Decision.text : Decision → String
  | direct => "Direct"
  | socks5 proxy => s!"Socks5({proxy.text})"

/-- An engine's answer: the proxy's host in text, or none for a direct connection. -/
structure PolicyAnswer where
  host : Option String := none
  port : UInt16 := 0
  noCache : Bool := false
deriving DecidableEq, Repr, Inhabited

namespace PolicyAnswer

def ofDecision (decision : Decision) (noCache : Bool) : PolicyAnswer :=
  match decision with
  | .direct => { noCache }
  | .socks5 proxy => { host := some proxy.ip.text, port := proxy.port, noCache }

end PolicyAnswer

class PolicyEngine (π : Type) where
  /-- Answers for an application, a destination's name and its port. -/
  evaluate : π → String → String → UInt16 → Except PolicyError PolicyAnswer × π

instance {α β : Type} [PolicyEngine α] [PolicyEngine β] : PolicyEngine (α ⊕ β) where
  evaluate engine application name port :=
    match engine with
    | .inl a =>
        let (answer, a) := PolicyEngine.evaluate a application name port
        (answer, .inl a)
    | .inr b =>
        let (answer, b) := PolicyEngine.evaluate b application name port
        (answer, .inr b)

end Egress
