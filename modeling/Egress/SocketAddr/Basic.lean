import Egress.Ip.Addr

/-!
Socket addresses: an address of either family with a port, and for IPv6 also flow information and a
scope. Flow information is never written in text, a scope only when it is not zero. A connection is
routed by its endpoint: every target becomes one before anything is decided about it, so an
IPv4-mapped IPv6 address is treated as the IPv4 address it carries; flow information and scope play
no part.
-/

namespace Egress

structure SocketAddr4 where
  ip : Ipv4
  port : UInt16
deriving DecidableEq, Repr, Inhabited

structure SocketAddr6 where
  ip : Ipv6
  port : UInt16
  flow : UInt32 := 0
  scope : UInt32 := 0
deriving DecidableEq, Repr, Inhabited

inductive SocketAddr
  | v4 (a : SocketAddr4)
  | v6 (a : SocketAddr6)
deriving DecidableEq, Repr, Inhabited

namespace SocketAddr4

def text (a : SocketAddr4) : String := s!"{a.ip.text}:{a.port.toNat}"

/-- A strict IPv4 address, a colon and a decimal port, leading zeros allowed. -/
def read? (s : String) : Option SocketAddr4 :=
  match Text.pieces ':' s.toList with
  | [ip, port] => do
      let ip ← Ipv4.ofChars? ip
      let port ← (Text.numeral? 10 port).filter (· < 65536)
      return ⟨ip, UInt16.ofNat port⟩
  | _ => none

end SocketAddr4

namespace SocketAddr6

def text (a : SocketAddr6) : String :=
  if a.scope = 0 then s!"[{a.ip.text}]:{a.port.toNat}"
  else s!"[{a.ip.text}%{a.scope.toNat}]:{a.port.toNat}"

/-- Reads `[address]:port`, with a scope after a percent sign if there is one. -/
def read? (s : String) : Option SocketAddr6 := do
  let rest ← match s.toList with
    | '[' :: rest => some rest
    | _ => none
  let (inner, port) ← match Text.pieces ']' rest with
    | [inner, ':' :: port] => some (inner, port)
    | _ => none
  let port ← (Text.numeral? 10 port).filter (· < 65536)
  let (ip, scope) ← match Text.pieces '%' inner with
    | [ip] => some (ip, 0)
    | [ip, scope] => (Text.numeral? 10 scope).map fun n => (ip, n)
    | _ => none
  let ip ← Ipv6.ofChars? ip
  if scope < 0x100000000 then some { ip, port := UInt16.ofNat port, scope := UInt32.ofNat scope }
  else none

end SocketAddr6

namespace SocketAddr

def of (ip : IpAddr) (port : UInt16) : SocketAddr :=
  match ip with
  | .v4 a => .v4 ⟨a, port⟩
  | .v6 a => .v6 { ip := a, port }

def ip : SocketAddr → IpAddr
  | v4 a => .v4 a.ip
  | v6 a => .v6 a.ip

def port : SocketAddr → UInt16
  | v4 a => a.port
  | v6 a => a.port

def withPort (port : UInt16) : SocketAddr → SocketAddr
  | v4 a => v4 { a with port }
  | v6 a => v6 { a with port }

def text : SocketAddr → String
  | v4 a => a.text
  | v6 a => a.text

def read? (s : String) : Option SocketAddr :=
  match SocketAddr4.read? s with
  | some a => some (v4 a)
  | none => (SocketAddr6.read? s).map v6

@[simp] theorem ip_of (ip : IpAddr) (port : UInt16) : (of ip port).ip = ip := by
  cases ip <;> rfl

@[simp] theorem port_of (ip : IpAddr) (port : UInt16) : (of ip port).port = port := by
  cases ip <;> rfl

@[simp] theorem port_withPort (p : UInt16) (a : SocketAddr) : (a.withPort p).port = p := by
  cases a <;> rfl

@[simp] theorem ip_withPort (p : UInt16) (a : SocketAddr) : (a.withPort p).ip = a.ip := by
  cases a <;> rfl

end SocketAddr

structure Endpoint where
  ip : IpAddr
  port : UInt16
  canonical_ip : ip.canonical = ip
deriving DecidableEq

namespace Endpoint

def new (ip : IpAddr) (port : UInt16) : Endpoint :=
  ⟨ip.canonical, port, IpAddr.canonical_canonical ip⟩

def normalize (target : SocketAddr) : Endpoint := new target.ip target.port

def socketAddr (e : Endpoint) : SocketAddr := SocketAddr.of e.ip e.port

def text (e : Endpoint) : String := e.socketAddr.text

@[simp] theorem normalize_socketAddr (e : Endpoint) : normalize e.socketAddr = e := by
  obtain ⟨ip, port, h⟩ := e
  simp [normalize, socketAddr, new, h]

theorem normalize_mapped (a : Ipv4) (port : UInt16) (flow scope : UInt32) :
    normalize (.v6 { ip := Ipv6.ofMapped a, port, flow, scope }) = normalize (.v4 ⟨a, port⟩) := by
  simp [normalize, new, SocketAddr.ip, SocketAddr.port, IpAddr.canonical]

end Endpoint

end Egress
