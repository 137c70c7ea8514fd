import Egress.Errno
import Egress.Ip.V4

/-!
Why a connection could not be routed. An error of the operating system and a refusal of the proxy
are sorted by what they mean for the caller: refused, unreachable, timed out, or anything else. A
SOCKS5 proxy refuses with a code, and the conversation with it can itself go wrong.
-/

namespace Egress

namespace Socks

inductive ReplyCode
  | succeeded
  | generalFailure
  | notAllowed
  | networkUnreachable
  | hostUnreachable
  | connectionRefused
  | ttlExpired
  | commandNotSupported
  | addressTypeNotSupported
  | unknown (code : UInt8)
deriving DecidableEq, Repr

namespace ReplyCode

def ofByte (code : UInt8) : ReplyCode :=
  match code.toNat with
  | 0 => succeeded
  | 1 => generalFailure
  | 2 => notAllowed
  | 3 => networkUnreachable
  | 4 => hostUnreachable
  | 5 => connectionRefused
  | 6 => ttlExpired
  | 7 => commandNotSupported
  | 8 => addressTypeNotSupported
  | _ => unknown code

def text : ReplyCode → String
  | succeeded => "succeeded"
  | generalFailure => "general failure"
  | notAllowed => "connection not allowed"
  | networkUnreachable => "network unreachable"
  | hostUnreachable => "host unreachable"
  | connectionRefused => "connection refused"
  | ttlExpired => "ttl expired"
  | commandNotSupported => "command not supported"
  | addressTypeNotSupported => "address type not supported"
  | unknown code => s!"unknown error {code.toNat}"

end ReplyCode

/-- A conversation that does not follow the protocol, or a request it cannot carry. -/
inductive ProtocolFault
  | version (found : UInt8)
  | authenticationRequired
  | addressType (found : UInt8)
  | nameLength (bytes : Nat)
deriving DecidableEq, Repr

def ProtocolFault.message : ProtocolFault → String
  | version found => s!"invalid proxy version {found.toNat}"
  | authenticationRequired => "proxy authentication required"
  | addressType found => s!"replied address type {found.toNat} not supported"
  | nameLength bytes => s!"domain name of {bytes} bytes cannot be sent"

end Socks

/-- Why a name could not be turned into addresses. -/
inductive ResolveError
  | unsupported
  | lookupFailed (reason : String)
deriving DecidableEq, Repr

def ResolveError.message : ResolveError → String
  | unsupported => "unsupported hostname"
  | lookupFailed reason => s!"lookup failed: {reason}"

/-- Who said that a destination refuses connections or cannot be reached. -/
inductive Cause
  | system (error : OsError)
  | proxy (code : Socks.ReplyCode)
deriving DecidableEq, Repr

def Cause.message : Cause → String
  | system error => error.message
  | proxy code => code.text

inductive RouteError
  | invalidEndpoint (family : Int)
  | policyUnavailable (reason : String)
  | dialTimeout
  | dialRefused (cause : Cause)
  | dialUnreachable (cause : Cause)
  | proxyRejected (code : Socks.ReplyCode)
  | proxyProtocol (fault : Socks.ProtocolFault)
  | peerClosed
  | staleSyntheticAddress (address : Ipv4)
  | resolve (error : ResolveError)
  | io (error : OsError)
deriving DecidableEq, Repr

namespace RouteError

def message : RouteError → String
  | invalidEndpoint family => s!"unsupported address family {family}"
  | policyUnavailable reason => s!"policy engine unavailable: {reason}"
  | dialTimeout => "timed out"
  | dialRefused cause => s!"connection refused ({cause.message})"
  | dialUnreachable cause => s!"unreachable ({cause.message})"
  | proxyRejected code => s!"proxy rejected request: {code.text}"
  | proxyProtocol fault => s!"proxy protocol error: {fault.message}"
  | peerClosed => "closed by peer"
  | staleSyntheticAddress address => s!"synthetic address {address.text} has no live binding"
  | resolve error => s!"resolve failed: {error.message}"
  | io error => error.message

def ofOs (error : OsError) : RouteError :=
  match error with
  | .numbered errno =>
      if errno = Errno.connectionRefused then dialRefused (.system error)
      else if errno = Errno.networkUnreachable ∨ errno = Errno.hostUnreachable then
        dialUnreachable (.system error)
      else if errno = Errno.timedOut then dialTimeout
      else io error
  | .described .timedOut _ => dialTimeout
  | .described .connectionRefused _ => dialRefused (.system error)
  | .described _ _ => io error

def ofErrno (errno : Nat) : RouteError := ofOs (.numbered errno)

def ofReply (code : Socks.ReplyCode) : RouteError :=
  match code with
  | .connectionRefused => dialRefused (.proxy code)
  | .networkUnreachable => dialUnreachable (.proxy code)
  | .hostUnreachable => dialUnreachable (.proxy code)
  | _ => proxyRejected code

def isTimeout : RouteError → Bool
  | dialTimeout => true
  | _ => false

end RouteError

end Egress
