import Egress.Router.Basic
import Egress.Text.Utf8

/-!
Values that cross the boundary to the embedding program: strings as bytes without their closing NUL,
buffers to be filled, optional callbacks, and a configuration in which zero asks for the default.
-/

namespace Egress.Embedding

/-- A string handed in, or a null pointer. -/
abbrev CString := Option (List UInt8)

/-- The text of a string. One that is not UTF-8 counts as missing. -/
def CString.text? (s : CString) : Option String := s.bind Text.ofBytes?

/-- Callbacks handed in: a null pointer, a table without the callback, or the callback. -/
inductive Hook (α : Type)
  | null
  | empty
  | installed (callback : α)
deriving DecidableEq, Repr

def Hook.callback? {α : Type} : Hook α → Option α
  | installed callback => some callback
  | _ => none

/-- Writes a text and a NUL into a buffer, as much of the text as fits before the NUL, and says
whether all of it did. Nothing fits into an empty buffer. -/
def fillBuffer (value : String) (buffer : List UInt8) : Bool × List UInt8 :=
  match buffer with
  | [] => (false, [])
  | _ :: room =>
      let bytes := (Text.bytes value).take room.length
      ((Text.bytes value).length ≤ room.length,
        bytes ++ 0 :: buffer.drop (bytes.length + 1))

structure Config where
  ceiling : UInt32
  block : UInt8
  capacity : UInt32
  /-- Exempt IPv6 destinations by rules and not altogether. -/
  ipv6ByRules : Bool
  application : CString

namespace Config

def standard : Config where
  ceiling := 10000
  block := 240
  capacity := 16777215
  ipv6ByRules := false
  application := none

def minCeiling : Nat := 100

def maxCeiling : Nat := 120000

def toRouterConfig (c : Config) (processName : String) : RouterConfig where
  ceiling :=
    if c.ceiling = 0 then RouterConfig.defaultCeiling
    else max minCeiling (min c.ceiling.toNat maxCeiling)
  block := if c.block = 0 then SyntheticTable.defaultBlock else c.block
  capacity :=
    if c.capacity = 0 then SyntheticTable.maxCapacity
    else min c.capacity.toNat SyntheticTable.maxCapacity
  exemptions := { Exemptions.standard with allIpv6 := !c.ipv6ByRules }
  application :=
    match c.application.text? with
    | some name => if name.isEmpty then processName else name
    | none => processName

end Config

/-- Installs or removes the sink of a journal and says whether that was possible: a sink needs its
callback. Here a sink is its mask and its owner's number. -/
def setSink (j : Journal) (sink : Hook (Crumbs × Nat)) (level : CString) : Bool × Journal :=
  match sink with
  | .null => (true, j.install none)
  | .empty => (false, j)
  | .installed (mask, context) =>
      let level := (level.text?.map Level.ofWord).getD .info
      (true, j.install (some { level, mask, context }))

end Egress.Embedding
