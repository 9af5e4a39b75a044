import LineScript.Toml.Value

/-!
# Ranges of numbers

A number of a document is accepted at any size as long as nobody looks at it.
Passing over a value looks at its numbers: a whole number must then fit in 128
bits, signed or not, and a floating-point number must be finite in binary64
unless it is written as an infinity.
-/

namespace LineScript.Toml

/-- Whether a literal does not round to an infinity in binary64. -/
def literalInRange : Literal → Bool
  | .finite _ digits exponent =>
    match Literal.nearest? digits exponent with
    | none => false
    | some x => x.units < Nat.pow 2 1024 * Binary64.one
  | _ => true

/-- Whether the number of an unquoted value can be represented. -/
def Scalar.inRange : Scalar → Bool
  | .integer n => -(Nat.pow 2 127 : Nat) ≤ n && n < (Nat.pow 2 128 : Nat)
  | .number literal => literalInRange literal
  | _ => true

mutual

/-- Whether every number in a value can be represented. -/
def Value.inRange : Value → Bool
  | .string _ => true
  | .scalar value => value.inRange
  | .array items => allInRange items
  | .table _ entries => entriesInRange entries
  | .tables earlier latest => tablesInRange earlier && entriesInRange latest

/-- Whether every number in a list of values can be represented. -/
def allInRange : List Value → Bool
  | [] => true
  | value :: rest => value.inRange && allInRange rest

/-- Whether every number in a table can be represented. -/
def entriesInRange : List (String × Value) → Bool
  | [] => true
  | (_, value) :: rest => value.inRange && entriesInRange rest

/-- Whether every number in a list of tables can be represented. -/
def tablesInRange : List (List (String × Value)) → Bool
  | [] => true
  | entries :: rest => entriesInRange entries && tablesInRange rest

end

end LineScript.Toml
