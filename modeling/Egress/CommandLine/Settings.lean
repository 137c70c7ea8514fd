import Egress.Policy.Rules
import Egress.Router.Basic

/-!
The arguments of the command line, and the policy and configuration they ask for.
-/

namespace Egress.CommandLine

inductive UsageError
  | valueMissing (flag : String)
  | patternMissing
  | proxyAddress (value : String)
  | timeout
  | unknownArgument (argument : String)
  | positionals
  | port (value : String)
  | viaWithoutProxy
deriving DecidableEq, Repr

def UsageError.message : UsageError → String
  | valueMissing flag => s!"{flag} requires a value"
  | patternMissing => "--via requires a pattern"
  | proxyAddress value => s!"invalid proxy address '{value}'"
  | timeout => "invalid timeout"
  | unknownArgument argument =>
      s!"unknown argument '{argument}'. Supported flags: --proxy <ip:port>, --via <pattern>, " ++
        "--app <name>, --timeout-ms <ms>, --verbose"
  | positionals => "usage: standalone [flags] <host> <port>"
  | port value => s!"invalid port '{value}'"
  | viaWithoutProxy => "--via requires --proxy"

/-- What the arguments read so far ask for. -/
structure Arguments where
  proxy : Option SocketAddr4 := none
  via : List String := []
  application : Option String := none
  timeout : Nat := RouterConfig.defaultCeiling
  verbose : Bool := false
  positionals : List String := []

structure Settings where
  proxy : Option SocketAddr4
  via : List String
  application : Option String
  timeout : Nat
  verbose : Bool
  host : String
  port : UInt16
deriving DecidableEq, Repr

namespace Arguments

/-- Reads arguments in order. Of a flag given twice the last counts, except that patterns add up. -/
def read (a : Arguments) : List String → Except UsageError Arguments
  | [] => .ok a
  | argument :: rest =>
      if argument = "--proxy" then
        match rest with
        | [] => .error (.valueMissing "--proxy")
        | value :: rest =>
            match SocketAddr4.read? value with
            | some proxy => { a with proxy := some proxy }.read rest
            | none => .error (.proxyAddress value)
      else if argument = "--via" then
        match rest with
        | [] => .error .patternMissing
        | value :: rest => { a with via := a.via ++ [value] }.read rest
      else if argument = "--app" then
        match rest with
        | [] => .error (.valueMissing "--app")
        | value :: rest => { a with application := some value }.read rest
      else if argument = "--timeout-ms" then
        match rest with
        | [] => .error (.valueMissing "--timeout-ms")
        | value :: rest =>
            match Text.wordNumeral? 0x10000000000000000 value.toList with
            | some millis => { a with timeout := max millis 1 }.read rest
            | none => .error .timeout
      else if argument = "-v" ∨ argument = "--verbose" then { a with verbose := true }.read rest
      else if argument.toList.head? = some '-' then .error (.unknownArgument argument)
      else { a with positionals := a.positionals ++ [argument] }.read rest

end Arguments

namespace Settings

def ofArguments (a : Arguments) : Except UsageError Settings :=
  match a.positionals with
  | [host, port] =>
      match Text.port? port with
      | none => .error (.port port)
      | some portNumber =>
          if ¬a.via.isEmpty ∧ a.proxy.isNone then .error .viaWithoutProxy
          else .ok {
            proxy := a.proxy
            via := a.via
            application := a.application
            timeout := a.timeout
            verbose := a.verbose
            host
            port := portNumber }
  | _ => .error .positionals

def parse (arguments : List String) : Except UsageError Settings := do
  ofArguments (← Arguments.read {} arguments)

def routerConfig (s : Settings) (processName : String) : RouterConfig :=
  { RouterConfig.standard (s.application.getD processName) with ceiling := s.timeout }

/-- Without patterns everything goes through the proxy, with patterns what one of them covers. -/
def policy (s : Settings) : RulePolicy :=
  match s.proxy with
  | none => {}
  | some proxy =>
      if s.via.isEmpty then { fallback := .socks5 proxy }
      else s.via.foldl (fun p pattern => (p.install none (.ofPattern pattern) (.socks5 proxy)).2) {}

end Settings

end Egress.CommandLine
