import Egress.CommandLine.Settings

/-!
Command lines as lists of arguments. A flag and its value are one argument, a value may look like a
flag, and nothing but a positional argument may stand by itself. The settings of a command line say
what its arguments ask for; a command line that is no such list, or whose arguments do not fit
together, is refused.
-/

namespace Egress.CommandLine

/-- An argument of the command line, with what its words are read as. -/
inductive Argument
  | proxy (value : String) (address : SocketAddr4) (h : SocketAddr4.read? value = some address)
  | via (pattern : String)
  | application (name : String)
  | timeout (value : String) (millis : Nat)
      (h : Text.wordNumeral? 0x10000000000000000 value.toList = some millis)
  | verbose (word : String) (h : word = "-v" ∨ word = "--verbose")
  | positional (value : String) (h : value.toList.head? ≠ some '-')

namespace Argument

def words : Argument → List String
  | proxy value _ _ => ["--proxy", value]
  | via pattern => ["--via", pattern]
  | application name => ["--app", name]
  | timeout value _ _ => ["--timeout-ms", value]
  | verbose word _ => [word]
  | positional value _ => [value]

def proxy? : Argument → Option SocketAddr4
  | proxy _ address _ => some address
  | _ => none

def pattern? : Argument → Option String
  | via pattern => some pattern
  | _ => none

def application? : Argument → Option String
  | application name => some name
  | _ => none

/-- The ceiling that is asked for. It is never no time at all. -/
def ceiling? : Argument → Option Nat
  | timeout _ millis _ => some (max millis 1)
  | _ => none

def isVerbose : Argument → Bool
  | verbose _ _ => true
  | _ => false

def positional? : Argument → Option String
  | positional value _ => some value
  | _ => none

end Argument

namespace Arguments

/-- What is asked for with one argument more. -/
def ask (a : Arguments) : Argument → Arguments
  | .proxy _ address _ => { a with proxy := some address }
  | .via pattern => { a with via := a.via ++ [pattern] }
  | .application name => { a with application := some name }
  | .timeout _ millis _ => { a with timeout := max millis 1 }
  | .verbose _ _ => { a with verbose := true }
  | .positional value _ => { a with positionals := a.positionals ++ [value] }

/-- The words of an argument are read as that argument, whatever comes after them. -/
theorem read_words (a : Arguments) (argument : Argument) (words : List String) :
    a.read (argument.words ++ words) = (a.ask argument).read words := by
  cases argument with
  | proxy value address h => simp [Argument.words, read, h, ask]
  | via pattern => simp [Argument.words, read, ask]
  | application name => simp [Argument.words, read, ask]
  | timeout value millis h => simp [Argument.words, read, h, ask]
  | verbose word h =>
      rcases h with rfl | rfl <;> cases words <;> simp [Argument.words, read, ask]
  | positional value h =>
      have hflag (flag : String) (hflag : flag.toList.head? = some '-') : value ≠ flag := by
        rintro rfl
        exact h hflag
      cases words <;> simp [Argument.words, read, ask, h, hflag "--proxy" rfl, hflag "--via" rfl,
        hflag "--app" rfl, hflag "--timeout-ms" rfl, hflag "-v" rfl, hflag "--verbose" rfl]

theorem read_flatMap_words (a : Arguments) (arguments : List Argument) :
    a.read (arguments.flatMap Argument.words) = .ok (arguments.foldl ask a) := by
  induction arguments generalizing a with
  | nil => simp [read]
  | cons argument arguments ih => rw [List.flatMap_cons, read_words, ih, List.foldl_cons]

/-- The words are those of arguments that make the one into the other. -/
def Spell (words : List String) (a b : Arguments) : Prop :=
  ∃ arguments : List Argument, words = arguments.flatMap Argument.words ∧
    arguments.foldl ask a = b

theorem Spell.cons {words : List String} {a b : Arguments} (argument : Argument)
    (h : Spell words (a.ask argument) b) : Spell (argument.words ++ words) a b := by
  obtain ⟨arguments, rfl, rfl⟩ := h
  exact ⟨argument :: arguments, rfl, rfl⟩

theorem spell_of_read {a b : Arguments} {words : List String} (h : a.read words = .ok b) :
    Spell words a b := by
  fun_induction read a words with
  | case1 a => exact ⟨[], rfl, Except.ok.inj h⟩
  | case3 a value words address hread ih => exact .cons (.proxy value address hread) (ih h)
  | case6 a value words _ ih => exact .cons (.via value) (ih h)
  | case8 a value words _ _ ih => exact .cons (.application value) (ih h)
  | case10 a value words millis hread _ _ _ ih => exact .cons (.timeout value millis hread) (ih h)
  | case12 a value words _ _ _ _ hverbose ih => exact .cons (.verbose value hverbose) (ih h)
  | case14 a value words _ _ _ _ _ hplain ih => exact .cons (.positional value hplain) (ih h)
  | case2 | case4 | case5 | case7 | case9 | case11 | case13 => cases h

/-- A command line can be read exactly if it is a list of arguments, and then they say how. -/
theorem read_eq_ok_iff {a b : Arguments} {words : List String} :
    a.read words = .ok b ↔ Spell words a b := by
  refine ⟨spell_of_read, ?_⟩
  rintro ⟨arguments, rfl, rfl⟩
  exact a.read_flatMap_words arguments

/-- Of what is asked for twice the last counts, but patterns and positional arguments add up. -/
theorem foldl_ask (a : Arguments) (arguments : List Argument) : arguments.foldl ask a = {
    proxy := (arguments.filterMap Argument.proxy?).getLast?.or a.proxy
    via := a.via ++ arguments.filterMap Argument.pattern?
    application := (arguments.filterMap Argument.application?).getLast?.or a.application
    timeout := (arguments.filterMap Argument.ceiling?).getLast?.getD a.timeout
    verbose := a.verbose || arguments.any Argument.isVerbose
    positionals := a.positionals ++ arguments.filterMap Argument.positional? } := by
  induction arguments generalizing a with
  | nil => simp
  | cons argument arguments ih =>
      rw [List.foldl_cons, ih]
      cases argument <;>
        simp [ask, List.filterMap_cons, List.getLast?_cons, Argument.proxy?, Argument.pattern?,
          Argument.application?, Argument.ceiling?, Argument.isVerbose, Argument.positional?]

end Arguments

namespace Settings

/-- The settings are what these arguments ask for, which name a host and a port, and a proxy if they
give patterns. -/
structure Asked (s : Settings) (arguments : List Argument) : Prop where
  proxy : s.proxy = (arguments.filterMap Argument.proxy?).getLast?
  via : s.via = arguments.filterMap Argument.pattern?
  application : s.application = (arguments.filterMap Argument.application?).getLast?
  timeout : s.timeout =
    (arguments.filterMap Argument.ceiling?).getLast?.getD RouterConfig.defaultCeiling
  verbose : s.verbose = arguments.any Argument.isVerbose
  destination : ∃ port, arguments.filterMap Argument.positional? = [s.host, port] ∧
    Text.port? port = some s.port
  proxied : s.via ≠ [] → s.proxy ≠ none

theorem ofArguments_eq_ok_iff {a : Arguments} {s : Settings} : ofArguments a = .ok s ↔
    (∃ port, a.positionals = [s.host, port] ∧ Text.port? port = some s.port) ∧
      (a.via ≠ [] → a.proxy ≠ none) ∧ s.proxy = a.proxy ∧ s.via = a.via ∧
      s.application = a.application ∧ s.timeout = a.timeout ∧ s.verbose = a.verbose := by
  obtain ⟨proxy, via, application, timeout, verbose, positionals⟩ := a
  obtain ⟨sproxy, svia, sapplication, stimeout, sverbose, shost, sport⟩ := s
  match positionals with
  | [] | [_] | _ :: _ :: _ :: _ => simp [ofArguments]
  | [host, port] =>
      cases hport : Text.port? port with
      | none => simp [ofArguments, hport]
      | some number =>
          by_cases hlost : ¬via.isEmpty ∧ proxy.isNone
          · simp only [ofArguments, hport, if_pos hlost]
            simp_all
          · simp only [ofArguments, hport, if_neg hlost]
            grind

theorem ofArguments_foldl_ask {arguments : List Argument} {s : Settings} :
    ofArguments (arguments.foldl Arguments.ask {}) = .ok s ↔ s.Asked arguments := by
  rw [Arguments.foldl_ask, ofArguments_eq_ok_iff]
  simp only [List.nil_append, Option.or_none, Bool.false_or]
  constructor
  · rintro ⟨hdestination, hproxied, hproxy, hvia, happlication, htimeout, hverbose⟩
    rw [← hvia, ← hproxy] at hproxied
    exact ⟨hproxy, hvia, happlication, htimeout, hverbose, hdestination, hproxied⟩
  · rintro ⟨hproxy, hvia, happlication, htimeout, hverbose, hdestination, hproxied⟩
    rw [hvia, hproxy] at hproxied
    exact ⟨hdestination, hproxied, hproxy, hvia, happlication, htimeout, hverbose⟩

/-- The settings of a command line say what its arguments ask for, and there are none of a command
line without such arguments. -/
theorem parse_eq_ok_iff {words : List String} {s : Settings} : parse words = .ok s ↔
    ∃ arguments : List Argument, words = arguments.flatMap Argument.words ∧
      s.Asked arguments := by
  simp only [← ofArguments_foldl_ask]
  rw [parse]
  cases hread : Arguments.read {} words with
  | error e =>
      refine iff_of_false nofun ?_
      rintro ⟨arguments, rfl, -⟩
      rw [Arguments.read_flatMap_words] at hread
      cases hread
  | ok a =>
      obtain ⟨arguments, rfl, rfl⟩ := Arguments.read_eq_ok_iff.1 hread
      refine ⟨fun h => ⟨arguments, rfl, h⟩, ?_⟩
      rintro ⟨others, hsame, h⟩
      rw [hsame, Arguments.read_flatMap_words] at hread
      exact Except.ok.inj hread ▸ h

end Settings

end Egress.CommandLine
