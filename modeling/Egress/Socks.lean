import Egress.Network.Socket
import Egress.Text.Utf8

/-!
What a SOCKS5 client and its proxy say to each other. The client sends a greeting that offers no
authentication, and a CONNECT request that names the target by address or by name; a name has to fit
its one-byte length and must not be empty. The proxy sends two bytes that choose a method, and a
four-byte reply header after which the address it bound and a port follow. The header says how long
the rest is, for a name only together with the length byte that comes next. The request goes out
only after the proxy has chosen no authentication, and not a byte behind its reply is read.
-/

namespace Egress

namespace Socks

inductive Target
  | ipv4 (a : Ipv4)
  | ipv6 (a : Ipv6)
  | domain (name : String)
deriving DecidableEq, Repr

namespace Target

def addressType : Target → UInt8
  | ipv4 _ => 1
  | domain _ => 3
  | ipv6 _ => 4

def text : Target → String
  | ipv4 a => a.text
  | ipv6 a => s!"[{a.text}]"
  | domain name => name

/-- The address field of a request, a name with its length in front. -/
def payload : Target → Except ProtocolFault (List UInt8)
  | ipv4 a => .ok a.octets
  | ipv6 a => .ok a.octets
  | domain name =>
      let bytes := Text.bytes name
      if bytes.length = 0 ∨ 255 < bytes.length then .error (.nameLength bytes.length)
      else .ok (UInt8.ofNat bytes.length :: bytes)

end Target

def version : UInt8 := 5

def greeting : List UInt8 := [version, 1, 0]

def connectRequest (target : Target) (port : UInt16) : Except ProtocolFault (List UInt8) :=
  match target.payload with
  | .ok payload =>
      .ok ([version, 1, 0, target.addressType] ++ payload ++ Bytes.toBigEndian 2 port.toNat)
  | .error fault => .error fault

def checkMethod (version method : UInt8) : Except RouteError Unit :=
  if version ≠ 5 then .error (.proxyProtocol (.version version))
  else if method ≠ 0 then .error (.proxyProtocol .authenticationRequired)
  else .ok ()

/-- The form of the bound address in a reply. -/
inductive BoundAddress
  | fixed (length : Nat)
  | domain
deriving DecidableEq, Repr

/-- How many bytes are left after the header, the length byte of a name not counted. -/
def BoundAddress.remaining (domainLength : UInt8) : BoundAddress → Nat
  | fixed length => length
  | domain => domainLength.toNat + 2

def readHeader (version code addressType : UInt8) : Except RouteError BoundAddress :=
  if version ≠ 5 then .error (.proxyProtocol (.version version))
  else
    match ReplyCode.ofByte code with
    | .succeeded =>
        if addressType = 1 then .ok (.fixed 6)
        else if addressType = 3 then .ok .domain
        else if addressType = 4 then .ok (.fixed 18)
        else .error (.proxyProtocol (.addressType addressType))
    | refusal => .error (.ofReply refusal)

end Socks

/-- A conversation on a socket, ended by its first error. -/
abbrev Conversation (α : Type) := ExceptT RouteError (StateM Socket) α

namespace Conversation

def send (ceiling : Nat) (bytes : List UInt8) : Conversation Unit :=
  fun s => s.sendAll ceiling bytes

def receive (ceiling length : Nat) : Conversation (List UInt8) :=
  fun s => s.receiveExact ceiling length

def require {α : Type} (answer : Except RouteError α) : Conversation α :=
  fun s => (answer, s)

end Conversation

open Conversation in
/-- Asks the proxy to connect: greeting, method, request, reply header, bound address. -/
def negotiate (ceiling : Nat) (request : List UInt8) : Conversation Unit := do
  send ceiling Socks.greeting
  let method ← receive ceiling 2
  require (Socks.checkMethod (method.getD 0 0) (method.getD 1 0))
  send ceiling request
  let header ← receive ceiling 4
  let bound ← require (Socks.readHeader (header.getD 0 0) (header.getD 1 0) (header.getD 3 0))
  let domainLength ← match bound with
    | .domain => receive ceiling 1
    | .fixed _ => pure []
  let _ ← receive ceiling (bound.remaining (domainLength.getD 0 0))

end Egress
