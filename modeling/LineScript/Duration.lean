import LineScript.Number.Literal
import LineScript.Number.Shortest

/-!
# Durations

A duration is a whole number of nanoseconds. It is read from a number of
seconds in two roundings, first to binary64 and then to the nearest nanosecond,
ties to even each time, and it is shown as the shortest decimal of its seconds
in binary64. Durations of `2 ^ 64` seconds and more are refused.
-/

namespace LineScript

/-- A length of time. -/
structure Duration where
  /-- The length in nanoseconds. -/
  nanos : Nat
  deriving DecidableEq, Repr

/-- Why a text is no duration. -/
inductive DurationError where
  /-- It is not a number. -/
  | malformed
  /-- It is below zero. -/
  | negative
  /-- It is `2 ^ 64` seconds or more, or not a number. -/
  | tooLarge
  deriving DecidableEq, Repr

/-- The wording of a refused duration. -/
def DurationError.message : DurationError → String
  | .malformed => "invalid float literal"
  | .negative => "cannot convert float seconds to Duration: value is negative"
  | .tooLarge => "cannot convert float seconds to Duration: value is either too big or NaN"

namespace Duration

/-- The nanoseconds in a second. -/
def nanosPerSecond : Nat := 1000000000

/-- The whole seconds. -/
def seconds (d : Duration) : Nat := d.nanos / nanosPerSecond

/-- The nanoseconds after the last whole second. -/
def subsecond (d : Duration) : Nat := d.nanos % nanosPerSecond

/-- A number of milliseconds. -/
def ofMillis (millis : Nat) : Duration := ⟨millis * 1000000⟩

/-- The duration in milliseconds, rounded up. -/
def ceilMillis (d : Duration) : Nat := (d.nanos + 999999) / 1000000

/-- The nearest number of nanoseconds to a number of seconds below `2 ^ 64`. -/
def ofBinary64? (x : Binary64) : Option Duration :=
  if x.units < Nat.pow 2 64 * Binary64.one then
    some ⟨divNearest (x.units * nanosPerSecond) Binary64.one⟩
  else none

/-- The duration of a literal's number of seconds. A negative number that
rounds to zero in binary64 counts as zero. -/
def ofLiteral : Literal → Except DurationError Duration
  | .notANumber => .error .tooLarge
  | .infinite negative => .error (if negative then .negative else .tooLarge)
  | .finite negative digits exponent =>
    match Literal.nearest? digits exponent with
    | none => .error (if negative then .negative else .tooLarge)
    | some x =>
      if negative ∧ x.mantissa ≠ 0 then .error .negative
      else
        match ofBinary64? x with
        | none => .error .tooLarge
        | some d => .ok d

/-- Reads a number of seconds. -/
def parse (text : List Char) : Except DurationError Duration :=
  match Literal.parse? text with
  | none => .error .malformed
  | some literal => ofLiteral literal

/-- The seconds in binary64: whole seconds and fraction, each rounded, and
their sum rounded again. -/
def toBinary64 (d : Duration) : Binary64 :=
  (Binary64.nearest d.seconds 1).add (Binary64.nearest d.subsecond nanosPerSecond)

/-- A transcript shows whole seconds with `.0`, and uses an exponent from
`10 ^ 16` on and below `10 ^ -4`. -/
def transcriptLayout : Decimal.Layout := ⟨true, some (-3, 16)⟩

/-- A listing shows whole seconds without a point and never an exponent. -/
def listingLayout : Decimal.Layout := ⟨false, none⟩

/-- The seconds as shown in a layout. -/
def render (layout : Decimal.Layout) (d : Duration) : String :=
  d.toBinary64.shortest.render layout

end Duration

end LineScript
