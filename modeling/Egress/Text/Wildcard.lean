/-!
Wildcard patterns: `*` stands for any run of characters, `?` for exactly one, every other character
for itself, and a pattern has to cover the whole text. Whoever uses patterns takes what they cover
from a `Covering`; the one given here tries all characters a pattern may stand for at once.
-/

namespace Egress.Text

structure Wildcard where
  pattern : List Char
deriving Repr, DecidableEq

namespace Wildcard

def ofText (s : String) : Wildcard := ⟨s.toList⟩

def endings : List Char → List (List Char)
  | [] => [[]]
  | c :: cs => (c :: cs) :: endings cs

/-- The rest of a text after one character that satisfies `p`. -/
def after (p : Char → Bool) : List Char → Option (List Char)
  | c :: cs => if p c then some cs else none
  | [] => none

/-- Runs a pattern over every text it may still have to cover. They are endings of one text,
longest first, so a star leaves the endings of the first. -/
def run : List Char → List (List Char) → Bool
  | [], rests => rests.any List.isEmpty
  | '*' :: pattern, rests =>
      match rests with
      | [] => false
      | longest :: _ => run pattern (endings longest)
  | '?' :: pattern, rests => run pattern (rests.filterMap (after fun _ => true))
  | c :: pattern, rests => run pattern (rests.filterMap (after (· == c)))

def covers (w : Wildcard) (s : String) : Bool := run w.pattern [s.toList]

end Wildcard

/-- A matcher: which texts each pattern covers. -/
class Covering where
  covers : Wildcard → String → Bool

instance : Covering := ⟨Wildcard.covers⟩

end Egress.Text
