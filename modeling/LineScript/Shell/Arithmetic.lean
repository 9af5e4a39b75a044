/-!
# Calculations of the shell

Whole numbers of 64 bits with a sign, variables that hold such numbers, and the
operators of arithmetic, comparison, logic and bits, which bind as is usual for
them. Results that do not fit wrap around.
-/

namespace LineScript.Shell

/-- An operator between two numbers. -/
inductive Operator where
  /-- The sum. -/
  | add
  /-- The difference. -/
  | sub
  /-- The product. -/
  | mul
  /-- The quotient, rounded towards zero. -/
  | div
  /-- The remainder of that quotient. -/
  | rem
  /-- Bits moved up. -/
  | shiftLeft
  /-- Bits moved down. -/
  | shiftRight
  /-- Whether less. -/
  | lt
  /-- Whether less or equal. -/
  | le
  /-- Whether greater. -/
  | gt
  /-- Whether greater or equal. -/
  | ge
  /-- Whether equal. -/
  | eq
  /-- Whether different. -/
  | ne
  /-- The bits of both. -/
  | bitAnd
  /-- The bits of one of the two. -/
  | bitXor
  /-- The bits of either. -/
  | bitOr
  deriving DecidableEq, Repr

/-- A calculation. -/
inductive Calculation where
  /-- A number. -/
  | number (value : Int)
  /-- The number in a variable. -/
  | lookup (name : String)
  /-- An operator between two results. -/
  | binary (op : Operator) (left right : Calculation)
  /-- The result with the other sign. -/
  | minus (body : Calculation)
  /-- The bits that are not set. -/
  | flip (body : Calculation)
  /-- Whether the result is zero. -/
  | isZero (body : Calculation)
  /-- Whether both are true; the second is not looked at if the first is not. -/
  | both (left right : Calculation)
  /-- Whether one is true; the second is not looked at if the first is. -/
  | either (left right : Calculation)
  /-- One of two results. -/
  | choice (condition yes no : Calculation)
  /-- The result becomes the number of a variable. -/
  | store (name : String) (body : Calculation)
  deriving Repr

namespace Calculation

/-- A number brought into 64 bits. -/
def wrap (n : Int) : Int := n.bmod (Nat.pow 2 64)

/-- A truth value as a number. -/
def truth (b : Bool) : Int := if b then 1 else 0

/-- The bits of a number below `2 ^ 64`. -/
def bits (n : Int) : Nat := (n.emod (Nat.pow 2 64 : Nat)).toNat

/-- The result of an operator; a division by zero has none. -/
def apply : Operator → Int → Int → Option Int
  | .add, a, b => some (wrap (a + b))
  | .sub, a, b => some (wrap (a - b))
  | .mul, a, b => some (wrap (a * b))
  | .div, a, b => if b = 0 then none else some (wrap (a.tdiv b))
  | .rem, a, b => if b = 0 then none else some (a.tmod b)
  | .shiftLeft, a, b => some (wrap (a * (Nat.pow 2 (bits b % 64) : Nat)))
  | .shiftRight, a, b => some (a.fdiv (Nat.pow 2 (bits b % 64) : Nat))
  | .lt, a, b => some (truth (a < b))
  | .le, a, b => some (truth (a ≤ b))
  | .gt, a, b => some (truth (b < a))
  | .ge, a, b => some (truth (b ≤ a))
  | .eq, a, b => some (truth (a = b))
  | .ne, a, b => some (truth (a ≠ b))
  | .bitAnd, a, b => some (wrap (bits a &&& bits b : Nat))
  | .bitXor, a, b => some (wrap (bits a ^^^ bits b : Nat))
  | .bitOr, a, b => some (wrap (bits a ||| bits b : Nat))

/-- The result of a calculation, by steps that look up and set variables and
fail. -/
def run {m : Type → Type} [Monad m] (get : String → m Int) (set : String → Int → m Unit)
    (fail : m Int) : Calculation → m Int
  | .number value => return wrap value
  | .lookup name => get name
  | .binary op left right => do
    let a ← run get set fail left
    let b ← run get set fail right
    match apply op a b with
    | some value => return value
    | none => fail
  | .minus body => return wrap (-(← run get set fail body))
  | .flip body => return wrap (-(← run get set fail body) - 1)
  | .isZero body => return truth ((← run get set fail body) = 0)
  | .both left right => do
    if (← run get set fail left) = 0 then return 0
    return truth ((← run get set fail right) ≠ 0)
  | .either left right => do
    if (← run get set fail left) ≠ 0 then return 1
    return truth ((← run get set fail right) ≠ 0)
  | .choice condition yes no => do
    if (← run get set fail condition) ≠ 0 then run get set fail yes else run get set fail no
  | .store name body => do
    let value ← run get set fail body
    set name value
    return value

/-! ## Reading -/

/-- A step that reads from the front of a text. -/
abbrev Read := StateT (List Char) Option

/-- All signs of calculations, longer ones first. -/
def signs : List String :=
  ["<<=", ">>=", "||", "&&", "==", "!=", "<=", ">=", "<<", ">>", "+=", "-=", "*=", "/=", "%=",
    "&=", "|=", "^=", "+", "-", "*", "/", "%", "<", ">", "=", "!", "~", "&", "|", "^", "?", ":",
    "(", ")"]

/-- The text without the blanks at its start. -/
def skip (text : List Char) : List Char := text.dropWhile fun c => c = ' ' || c = '\t' || c = '\n'

/-- Takes the sign that comes next, if it is one of these. -/
def take (wanted : List String) : Read (Option String) := do
  let text := skip (← get)
  match signs.find? fun sign => sign.toList.isPrefixOf text with
  | some sign =>
    if sign ∈ wanted then
      set (text.drop sign.length)
      return some sign
    return none
  | none => return none

/-- The signs between two results, from the weakest. -/
def levels : List (List (String × Operator)) :=
  [[("|", .bitOr)], [("^", .bitXor)], [("&", .bitAnd)], [("==", .eq), ("!=", .ne)],
    [("<=", .le), (">=", .ge), ("<", .lt), (">", .gt)],
    [("<<", .shiftLeft), (">>", .shiftRight)], [("+", .add), ("-", .sub)],
    [("*", .mul), ("/", .div), ("%", .rem)]]

/-- The signs that calculate and store. -/
def stores : List (String × Operator) :=
  [("+=", .add), ("-=", .sub), ("*=", .mul), ("/=", .div), ("%=", .rem), ("<<=", .shiftLeft),
    (">>=", .shiftRight), ("&=", .bitAnd), ("|=", .bitOr), ("^=", .bitXor)]

/-- The value of a digit of a base up to sixteen. -/
def digit? (base : Nat) (c : Char) : Option Nat :=
  let value :=
    if c.isDigit then c.toNat - '0'.toNat
    else if 'a' ≤ c ∧ c ≤ 'f' then c.toNat - 'a'.toNat + 10
    else if 'A' ≤ c ∧ c ≤ 'F' then c.toNat - 'A'.toNat + 10
    else base
  if value < base then some value else none

/-- The number that digits of a base write. -/
def natOf? (base : Nat) (digits : List Char) : Option Nat :=
  if digits.isEmpty then none
  else digits.foldlM (fun n c => (digit? base c).map (base * n + ·)) 0

/-- A number without a sign: in base sixteen after its mark, in base eight after
a zero, and else in base ten. -/
def unsigned? : List Char → Option Nat
  | '0' :: 'x' :: digits | '0' :: 'X' :: digits => natOf? 16 digits
  | '0' :: c :: digits => natOf? 8 (c :: digits)
  | digits => natOf? 10 digits

/-- A number with or without a sign, and blanks around it. -/
def integer? (text : String) : Option Int :=
  let chars := (skip (skip text.toList).reverse).reverse
  match chars with
  | '-' :: digits => (unsigned? digits).map fun n => -(n : Int)
  | '+' :: digits => (unsigned? digits).map Int.ofNat
  | digits => (unsigned? digits).map Int.ofNat

/-- The characters of numbers and names. -/
def isWordChar (c : Char) : Bool := c.isAlphanum || c = '_'

mutual

/-- Reads a calculation. -/
def whole : Nat → Read Calculation
  | 0 => fun _ => none
  | fuel + 1 => do
    let condition ← logical fuel true
    match ← take ["?"] with
    | none => return condition
    | some _ =>
      let yes ← whole fuel
      let some _ ← take [":"] | fun _ => none
      return .choice condition yes (← whole fuel)

/-- Reads results joined by logic: alternatives, or what all must hold. -/
def logical : Nat → Bool → Read Calculation
  | 0, _ => fun _ => none
  | fuel + 1, alternatives => do
    let first ← if alternatives then logical fuel false else leveled fuel levels
    match ← take [if alternatives then "||" else "&&"] with
    | none => return first
    | some _ =>
      let second ← logical fuel alternatives
      return if alternatives then .either first second else .both first second

/-- Reads results joined by the operators of some levels. -/
def leveled : Nat → List (List (String × Operator)) → Read Calculation
  | 0, _ => fun _ => none
  | fuel + 1, [] => unary fuel
  | fuel + 1, level :: rest => do leveledAfter fuel level rest (← leveled fuel rest)

/-- Reads what is joined to a result by the operators of a level. -/
def leveledAfter : Nat → List (String × Operator) → List (List (String × Operator)) →
    Calculation → Read Calculation
  | 0, _, _, _ => fun _ => none
  | fuel + 1, level, rest, first => do
    match (← take (level.map Prod.fst)).bind fun sign => level.lookup sign with
    | none => return first
    | some op => leveledAfter fuel level rest (.binary op first (← leveled fuel rest))

/-- Reads a result with signs before it. -/
def unary : Nat → Read Calculation
  | 0 => fun _ => none
  | fuel + 1 => do
    match ← take ["-", "+", "!", "~", "("] with
    | some "-" => return .minus (← unary fuel)
    | some "+" => unary fuel
    | some "!" => return .isZero (← unary fuel)
    | some "~" => return .flip (← unary fuel)
    | some _ =>
      let body ← whole fuel
      let some _ ← take [")"] | fun _ => none
      return body
    | none => primary fuel

/-- Reads a number, a variable, or the storing of a result in it. -/
def primary : Nat → Read Calculation
  | 0 => fun _ => none
  | fuel + 1 => do
    let (word, rest) := (skip (← get)).span isWordChar
    set rest
    match word with
    | [] => fun _ => none
    | c :: _ =>
      if c.isDigit then
        match unsigned? word with
        | some n => return .number n
        | none => fun _ => none
      else
        let name := String.ofList word
        match ← take ("=" :: stores.map Prod.fst) with
        | none => return .lookup name
        | some sign =>
          let body ← whole fuel
          match stores.lookup sign with
          | some op => return .store name (.binary op (.lookup name) body)
          | none => return .store name body

end

/-- Reads the calculation that a text writes; blanks alone count as zero. -/
def read? (text : String) : Option Calculation :=
  let chars := text.toList
  if (skip chars).isEmpty then some (.number 0)
  else
    match (whole (20 * chars.length + 40)).run chars with
    | some (calculation, rest) => if (skip rest).isEmpty then some calculation else none
    | none => none

end Calculation

end LineScript.Shell
