import Egress.Text.Character

/-!
The journal: lines for whoever installed a sink. A plain line passes when its level is not above the
sink's; a breadcrumb passes when the sink's mask has one of its flags, whatever the level. A line
that holds a NUL cannot be delivered and is lost. Error lines are limited: each category of errors
has its own clock, and a line is let through when the last one let through in its category is at
least a second old.
-/

namespace Egress

inductive ErrorCategory
  | directDial
  | proxiedDial
  | policy
  | descriptor
deriving DecidableEq, Repr

def ErrorCategory.label : ErrorCategory → String
  | directDial => "DIRECT_DIAL"
  | proxiedDial => "PROXIED_DIAL"
  | policy => "POLICY"
  | descriptor => "DESCRIPTOR"

/-- When each category last let a line through, in milliseconds; 0 for never. -/
structure Limiter where
  directDial : Nat := 0
  proxiedDial : Nat := 0
  policy : Nat := 0
  descriptor : Nat := 0
deriving DecidableEq, Repr

namespace Limiter

def interval : Nat := 1000

def last (l : Limiter) : ErrorCategory → Nat
  | .directDial => l.directDial
  | .proxiedDial => l.proxiedDial
  | .policy => l.policy
  | .descriptor => l.descriptor

def mark (l : Limiter) (category : ErrorCategory) (now : Nat) : Limiter :=
  match category with
  | .directDial => { l with directDial := now }
  | .proxiedDial => { l with proxiedDial := now }
  | .policy => { l with policy := now }
  | .descriptor => { l with descriptor := now }

/-- Whether a line may pass now, and the limiter after it. A clock that went back does not help. -/
def pass (l : Limiter) (category : ErrorCategory) (now : Nat) : Bool × Limiter :=
  if now - l.last category < interval then (false, l) else (true, l.mark category now)

@[simp] theorem last_mark (l : Limiter) (a b : ErrorCategory) (now : Nat) :
    (l.mark a now).last b = if a = b then now else l.last b := by
  cases a <;> cases b <;> rfl

end Limiter

inductive Level
  | error
  | warn
  | info
  | debug
deriving DecidableEq, Repr

namespace Level

def rank : Level → Nat
  | error => 0
  | warn => 1
  | info => 2
  | debug => 3

def name : Level → String
  | error => "error"
  | warn => "warn"
  | info => "info"
  | debug => "debug"

/-- The level a word stands for in any case; words that stand for none mean `info`. -/
def ofWord (word : String) : Level :=
  match Text.lower word with
  | "error" => error
  | "err" => error
  | "warn" => warn
  | "warning" => warn
  | "debug" => debug
  | "dbg" => debug
  | _ => info

end Level

/-- Breadcrumb flags, one bit each. -/
abbrev Crumbs := UInt32

namespace Crumbs

def route : Crumbs := 1
def dns : Crumbs := 2
def policy : Crumbs := 4
def dial : Crumbs := 8
def socks : Crumbs := 16
def embedding : Crumbs := 32

/-- The label of the first of these flags that is set. -/
def label (flags : Crumbs) : String :=
  if flags &&& route ≠ 0 then "ROUTE"
  else if flags &&& dial ≠ 0 then "DIAL"
  else if flags &&& socks ≠ 0 then "SOCKS"
  else if flags &&& policy ≠ 0 then "POLICY"
  else if flags &&& dns ≠ 0 then "DNS"
  else if flags &&& embedding ≠ 0 then "FFI"
  else "LOG"

end Crumbs

structure Sink where
  level : Level
  mask : Crumbs
  /-- A number of the sink's owner, handed back with every line. -/
  context : Nat := 0
deriving DecidableEq, Repr

structure Line where
  level : Level
  flags : Crumbs
  message : String
  context : Nat
deriving DecidableEq, Repr

structure Journal where
  processId : Nat
  sink : Option Sink := none
  limiter : Limiter := {}
  /-- The lines delivered so far, oldest first. -/
  lines : Array Line := #[]
deriving DecidableEq, Repr

namespace Journal

def accepts (sink : Sink) (level : Level) (flags : Crumbs) : Bool :=
  if flags = 0 then level.rank ≤ sink.level.rank else sink.mask &&& flags != 0

def format (j : Journal) (flags : Crumbs) (message : String) : String :=
  if flags = 0 then s!"[sb-p{j.processId}] {message}"
  else s!"[sb-p{j.processId}] [{flags.label}] {message}"

def deliver (j : Journal) (level : Level) (flags : Crumbs) (message : String) : Journal :=
  match j.sink with
  | none => j
  | some sink =>
      if accepts sink level flags ∧ '\x00' ∉ message.toList then
        { j with lines := j.lines.push ⟨level, flags, j.format flags message, sink.context⟩ }
      else j

def log (j : Journal) (level : Level) (message : String) : Journal :=
  if message.isEmpty then j else j.deliver level 0 message

/-- A breadcrumb. Without a message or without a flag it is dropped. -/
def breadcrumb (j : Journal) (flags : Crumbs) (message : String) : Journal :=
  if message.isEmpty ∨ flags = 0 then j else j.deliver .debug flags message

/-- An error line of a category, unless the category had one less than a second ago. The answer
says whether it was let through, delivered or not. -/
def limitedError (j : Journal) (now : Nat) (category : ErrorCategory) (message : String) :
    Bool × Journal :=
  match j.limiter.pass category now with
  | (false, _) => (false, j)
  | (true, limiter) =>
      (true, { j with limiter }.log .error s!"[{category.label}] {message}")

/-- `limitedError` where nobody asks whether the line was let through. -/
def complain (j : Journal) (now : Nat) (category : ErrorCategory) (message : String) : Journal :=
  (j.limitedError now category message).2

def install (j : Journal) (sink : Option Sink) : Journal := { j with sink }

def setMask (j : Journal) (mask : Crumbs) : Journal :=
  { j with sink := j.sink.map ({ · with mask }) }

end Journal

end Egress
