/-!
Errors of the operating system. Most are numbers: the ones that decide something here have a name,
and each has a text. Some only have a kind and a text of their own.
-/

namespace Egress

namespace Errno

def interrupted : Nat := 4
def inputOutput : Nat := 5
def badDescriptor : Nat := 9
def wouldBlock : Nat := 11
def networkUnreachable : Nat := 101
def timedOut : Nat := 110
def connectionRefused : Nat := 111
def hostUnreachable : Nat := 113
def inProgress : Nat := 115

/-- Whether an attempt to connect that returned this error is still under way. -/
def leavesConnecting (code : Nat) : Bool := code == inProgress || code == interrupted

/-- The texts of the numbers from 0 on. Two numbers among them were never given a meaning. -/
def texts : Array String := #[
  "Success", "Operation not permitted", "No such file or directory", "No such process",
  "Interrupted system call", "Input/output error", "No such device or address",
  "Argument list too long", "Exec format error", "Bad file descriptor", "No child processes",
  "Resource temporarily unavailable", "Cannot allocate memory", "Permission denied", "Bad address",
  "Block device required", "Device or resource busy", "File exists", "Invalid cross-device link",
  "No such device", "Not a directory", "Is a directory", "Invalid argument",
  "Too many open files in system", "Too many open files", "Inappropriate ioctl for device",
  "Text file busy", "File too large", "No space left on device", "Illegal seek",
  "Read-only file system", "Too many links", "Broken pipe", "Numerical argument out of domain",
  "Numerical result out of range", "Resource deadlock avoided", "File name too long",
  "No locks available", "Function not implemented", "Directory not empty",
  "Too many levels of symbolic links", "Unknown error 41", "No message of desired type",
  "Identifier removed", "Channel number out of range", "Level 2 not synchronized",
  "Level 3 halted", "Level 3 reset", "Link number out of range", "Protocol driver not attached",
  "No CSI structure available", "Level 2 halted", "Invalid exchange", "Invalid request descriptor",
  "Exchange full", "No anode", "Invalid request code", "Invalid slot", "Unknown error 58",
  "Bad font file format", "Device not a stream", "No data available", "Timer expired",
  "Out of streams resources", "Machine is not on the network", "Package not installed",
  "Object is remote", "Link has been severed", "Advertise error", "Srmount error",
  "Communication error on send", "Protocol error", "Multihop attempted", "RFS specific error",
  "Bad message", "Value too large for defined data type", "Name not unique on network",
  "File descriptor in bad state", "Remote address changed",
  "Can not access a needed shared library", "Accessing a corrupted shared library",
  ".lib section in a.out corrupted", "Attempting to link in too many shared libraries",
  "Cannot exec a shared library directly", "Invalid or incomplete multibyte or wide character",
  "Interrupted system call should be restarted", "Streams pipe error", "Too many users",
  "Socket operation on non-socket", "Destination address required", "Message too long",
  "Protocol wrong type for socket", "Protocol not available", "Protocol not supported",
  "Socket type not supported", "Operation not supported", "Protocol family not supported",
  "Address family not supported by protocol", "Address already in use",
  "Cannot assign requested address", "Network is down", "Network is unreachable",
  "Network dropped connection on reset", "Software caused connection abort",
  "Connection reset by peer", "No buffer space available",
  "Transport endpoint is already connected", "Transport endpoint is not connected",
  "Cannot send after transport endpoint shutdown", "Too many references: cannot splice",
  "Connection timed out", "Connection refused", "Host is down", "No route to host",
  "Operation already in progress", "Operation now in progress", "Stale file handle",
  "Structure needs cleaning", "Not a XENIX named type file", "No XENIX semaphores available",
  "Is a named type file", "Remote I/O error", "Disk quota exceeded", "No medium found",
  "Wrong medium type", "Operation canceled", "Required key not available", "Key has expired",
  "Key has been revoked", "Key was rejected by service", "Owner died", "State not recoverable",
  "Operation not possible due to RF-kill", "Memory page has hardware error"]

def text (errno : Nat) : String := (texts[errno]?).getD s!"Unknown error {errno}"

example : texts.size = 134 := rfl

example : text badDescriptor = "Bad file descriptor" ∧ text timedOut = "Connection timed out" ∧
    text connectionRefused = "Connection refused" ∧ text 41 = "Unknown error 41" ∧
    text 133 = "Memory page has hardware error" ∧ text 134 = "Unknown error 134" := by
  decide +kernel

end Errno

namespace OsError

inductive Kind
  | timedOut
  | connectionRefused
  | hostUnreachable
  | other
deriving DecidableEq, Repr

end OsError

inductive OsError
  | numbered (errno : Nat)
  | described (kind : OsError.Kind) (description : String)
deriving DecidableEq, Repr

namespace OsError

def message : OsError → String
  | numbered errno => s!"{Errno.text errno} (os error {errno})"
  | described _ description => description

end OsError

end Egress
