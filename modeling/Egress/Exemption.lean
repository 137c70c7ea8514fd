import Egress.Ip.NumericHost
import Egress.SocketAddr.Basic
import Egress.Text.Character
import Egress.Text.Utf8

/-!
Destinations that are never routed: loopback and private networks by address, and by name the empty
name, numeric hosts, `localhost` and the machine's own name.
-/

namespace Egress

/-- An exempt IPv4 network. Port 0 stands for every port; the mask may be any bit pattern. -/
structure Ipv4Exemption where
  network : Ipv4
  mask : Ipv4
  port : UInt16
deriving DecidableEq, Repr

def Ipv4Exemption.covers (r : Ipv4Exemption) (address : Ipv4) (port : UInt16) : Bool :=
  Ipv4.agree r.mask address r.network && (r.port == 0 || r.port == port)

/-- An exempt IPv6 network by the length of its leading bits. -/
structure Ipv6Exemption where
  network : Ipv6
  length : UInt8
deriving DecidableEq, Repr

def Ipv6Exemption.covers (r : Ipv6Exemption) (address : Ipv6) : Bool :=
  Ipv6.agree r.length.toNat address r.network

structure Exemptions where
  ipv4 : List Ipv4Exemption
  ipv6 : List Ipv6Exemption
  /-- Every IPv6 destination is exempt, whatever the rules. -/
  allIpv6 : Bool
deriving DecidableEq, Repr

namespace Exemptions

def standardIpv4 : List Ipv4Exemption := [
  ⟨.of 127 0 0 0, .of 255 0 0 0, 0⟩,
  ⟨.of 10 0 0 0, .of 255 0 0 0, 0⟩,
  ⟨.of 172 16 0 0, .of 255 240 0 0, 0⟩,
  ⟨.of 192 168 0 0, .of 255 255 0 0, 0⟩]

def standardIpv6 : List Ipv6Exemption := [
  ⟨.ofGroups [0, 0, 0, 0, 0, 0, 0, 1], 128⟩,
  ⟨.ofGroups [0xfc00, 0, 0, 0, 0, 0, 0, 0], 7⟩,
  ⟨.ofGroups [0xfe80, 0, 0, 0, 0, 0, 0, 0], 10⟩]

def standard : Exemptions := ⟨standardIpv4, standardIpv6, true⟩

def coversEndpoint (x : Exemptions) (e : Endpoint) : Bool :=
  match e.ip with
  | .v4 a => x.ipv4.any (·.covers a e.port)
  | .v6 a => x.allIpv6 || x.ipv6.any (·.covers a)

/-- Whether a name is exempt on a machine of the given name. -/
def coversName (localName : Option String) (name : String) : Bool :=
  name.isEmpty || (NumericHost.read? name).isSome || Text.sameFolded name "localhost" ||
    localName == some name

end Exemptions

/-- The machine's name out of the 256-byte buffer that asking for it fills: up to the first NUL or
the last byte of the buffer, read leniently. An empty name counts as none. -/
def hostName (answer : Option (List UInt8)) : Option String :=
  match answer with
  | none => none
  | some bytes =>
      let name := Text.ofBytesLossy ((bytes.take 255).takeWhile (· ≠ 0))
      if name.isEmpty then none else some name

end Egress
