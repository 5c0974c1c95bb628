import Fanout.Decimal.Numeral
import Fanout.Text.Case

/-!
# Levels of notices

Notices have five levels. A filter lets a level and everything graver through,
or nothing at all, so a filter is one of six thresholds.
-/

namespace Fanout

/-- How grave a notice is. -/
inductive Level where
  | error
  | warn
  | info
  | debug
  | trace
  deriving DecidableEq, Repr

namespace Level

def all : List Level := [error, warn, info, debug, trace]

def name : Level → String
  | error => "ERROR"
  | warn => "WARN"
  | info => "INFO"
  | debug => "DEBUG"
  | trace => "TRACE"

/-- One for the gravest level, five for the least grave. -/
def rank : Level → Nat
  | error => 1
  | warn => 2
  | info => 3
  | debug => 4
  | trace => 5

/-- The level of a name in any case or of a rank. -/
def ofText? (text : String) : Option Level :=
  let ranked := (readNat? mostNatural text.toList).bind fun n =>
    all.find? (·.rank == n)
  ranked <|> all.find? fun l => Text.sameIgnoringCase l.name text

end Level

/-- What a filter lets through: nothing, or all notices down to a level. -/
abbrev Threshold := Option Level

namespace Threshold

/-- Zero for nothing, then the rank of the least grave level. -/
def rank : Threshold → Nat
  | none => 0
  | some l => l.rank

def admits (threshold : Threshold) (level : Level) : Bool :=
  level.rank ≤ threshold.rank

end Threshold

end Fanout
