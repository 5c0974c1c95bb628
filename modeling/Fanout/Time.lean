/-!
# Moments and spans of time

Time is counted in nanoseconds from the start of a run, and a run may see only
differences. A moment is a plain number, so that arithmetic on deadlines is
arithmetic; a span is a type of its own, because it also has a text and a value
that stands for "never".

A clock cannot represent every moment that a span leads to. Where the sum of a
moment and a span is out of its reach, deadlines of the protocol fall back on a
year and timers on thirty years, both later than anything a run can wait for.
-/

namespace Fanout

/-- A moment, in nanoseconds since the start of the run. -/
abbrev Instant := Nat

/-- A length of time. -/
structure Span where
  nanos : Nat
  deriving DecidableEq, Repr, Inhabited

namespace Span

/-- The nanoseconds of a microsecond. -/
def micro : Nat := 1000

/-- The nanoseconds of a millisecond. -/
def milli : Nat := 1000000

/-- The nanoseconds of a second. -/
def second : Nat := 1000000000

def zero : Span := ⟨0⟩

def ofMillis (n : Nat) : Span := ⟨n * milli⟩

def ofSeconds (n : Nat) : Span := ⟨n * second⟩

def ofDays (n : Nat) : Span := ofSeconds (86400 * n)

/-- The longest span that can be written down: 64 bits of seconds, and a
fraction. -/
def longest : Span := ⟨Nat.pow 2 64 * second - 1⟩

/-- Whole milliseconds, as a 64-bit word. -/
def millis (s : Span) : Nat := s.nanos / milli % Nat.pow 2 64

/-- The digits of a fraction, down to the last one that is not zero. -/
def fractionText (part whole : Nat) : String :=
  let digits := (Nat.toDigits 10 (whole + part)).drop 1
  let kept := (digits.reverse.dropWhile (· = '0')).reverse
  if kept.isEmpty then "" else "." ++ String.ofList kept

/-- A span in the largest unit that it reaches, as exactly as needed. -/
def text (s : Span) : String :=
  let n := s.nanos
  if second ≤ n then
    toString (n / second) ++ fractionText (n % second) second ++ "s"
  else if milli ≤ n then
    toString (n / milli) ++ fractionText (n % milli) milli ++ "ms"
  else if micro ≤ n then
    toString (n / micro) ++ fractionText (n % micro) micro ++ "µs"
  else toString n ++ "ns"

end Span

namespace Instant

/-- The first moment that the clock cannot represent. -/
def limit : Nat := Nat.pow 2 63 * Span.second

/-- The moment a span later, if the clock can represent it. -/
def after? (t : Instant) (s : Span) : Option Instant :=
  if t + s.nanos < limit then some (t + s.nanos) else none

/-- The deadline a span later, or a year later where that is not
representable. -/
def deadline (t : Instant) (s : Span) : Instant :=
  (after? t s).getD (t + (Span.ofDays 365).nanos)

/-- When a timer set for a span goes off; thirty years stand for "never". -/
def timer (t : Instant) (s : Span) : Instant :=
  (after? t s).getD (t + (Span.ofDays (365 * 30)).nanos)

/-- The span from an earlier moment; none if that moment is not earlier. -/
def since (t earlier : Instant) : Span := ⟨t - earlier⟩

end Instant

end Fanout
