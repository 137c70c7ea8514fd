import Egress.Ip.V6

/-!
Addresses of either family. `canonical` replaces an IPv4-mapped IPv6 address by the IPv4 address it
stands for; it changes nothing else and a second application changes nothing at all.
-/

namespace Egress

inductive IpAddr
  | v4 (a : Ipv4)
  | v6 (a : Ipv6)
deriving DecidableEq, Repr, Inhabited

namespace IpAddr

def text : IpAddr → String
  | v4 a => a.text
  | v6 a => a.text

def read? (s : String) : Option IpAddr :=
  match Ipv4.read? s with
  | some a => some (v4 a)
  | none => (Ipv6.read? s).map v6

def canonical : IpAddr → IpAddr
  | v4 a => v4 a
  | v6 a =>
      match a.mapped? with
      | some m => v4 m
      | none => v6 a

def isV6 : IpAddr → Bool
  | v4 _ => false
  | v6 _ => true

def v4? : IpAddr → Option Ipv4
  | v4 a => some a
  | v6 _ => none

@[simp] theorem canonical_canonical (ip : IpAddr) : ip.canonical.canonical = ip.canonical := by
  cases ip with
  | v4 _ => rfl
  | v6 a => cases h : a.mapped? <;> simp [canonical, h]

end IpAddr

end Egress
