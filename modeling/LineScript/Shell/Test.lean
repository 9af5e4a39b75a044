import LineScript.FileTree
import LineScript.Shell.Arithmetic

/-!
# Tests

The conditions on strings, numbers and files that a script can ask about. A
condition is read from its arguments; a question about a file is left open for
the machine to answer.
-/

namespace LineScript.Shell

/-- What can be asked about the file at a path. -/
inductive FileQuestion where
  /-- Whether it exists. -/
  | present
  /-- Whether it is a file. -/
  | regular
  /-- Whether it is a directory. -/
  | directory
  /-- Whether it has content. -/
  | filled
  /-- Whether it can be started. -/
  | executable
  deriving DecidableEq, Repr

/-- The answer to a question about what was found. -/
def FileQuestion.answer (question : FileQuestion) (found : Except Fault Entry) : Bool :=
  match question, found with
  | _, .error _ => false
  | .present, .ok _ => true
  | .regular, .ok (.file _ _) | .regular, .ok (.utility _) => true
  | .directory, .ok .directory => true
  | .filled, .ok (.file content _) => !content.isEmpty
  | .filled, .ok .directory | .filled, .ok (.utility _) => true
  | .executable, .ok (.file _ allowed) => allowed
  | .executable, .ok .directory | .executable, .ok (.utility _) => true
  | _, _ => false

/-- A condition. -/
inductive Condition where
  /-- It is known whether it holds. -/
  | known (holds : Bool)
  /-- It is about a file. -/
  | file (question : FileQuestion) (path : String)
  /-- It holds if another does not. -/
  | not (body : Condition)
  /-- It holds if two others do. -/
  | both (left right : Condition)
  /-- It holds if one of two others does. -/
  | either (left right : Condition)
  deriving Repr

namespace Condition

/-- The questions about files. -/
def questions : List (String × FileQuestion) :=
  [("-e", .present), ("-f", .regular), ("-d", .directory), ("-s", .filled), ("-x", .executable),
    ("-r", .present), ("-w", .present)]

/-- The comparisons of numbers. -/
def comparisons : List (String × Operator) :=
  [("-eq", .eq), ("-ne", .ne), ("-lt", .lt), ("-le", .le), ("-gt", .gt), ("-ge", .ge)]

/-- A condition with one operand. -/
def unary? (op operand : String) : Option Condition :=
  match op with
  | "-n" => some (.known (operand != ""))
  | "-z" => some (.known (operand == ""))
  | "-t" => some (.known false)
  | _ => (questions.lookup op).map fun question => .file question operand

/-- A condition with two operands. -/
def binary? (left op right : String) : Option Condition :=
  match op with
  | "=" | "==" => some (.known (left == right))
  | "!=" => some (.known (left != right))
  | "<" => some (.known (left < right))
  | ">" => some (.known (right < left))
  | _ => do
    let comparison ← comparisons.lookup op
    let a ← Calculation.integer? left
    let b ← Calculation.integer? right
    return .known ((Calculation.apply comparison a b).getD 0 != 0)

/-- Whether a word joins two operands. -/
def isBinary (op : String) : Bool :=
  ["=", "==", "!=", "<", ">"].contains op || (comparisons.lookup op).isSome

mutual

/-- Reads alternatives, and what follows them. -/
def alternatives? : Nat → List String → Option (Condition × List String)
  | 0, _ => none
  | fuel + 1, words => do
    let (first, rest) ← joint? fuel words
    match rest with
    | "-o" :: rest =>
      let (second, rest) ← alternatives? fuel rest
      return (.either first second, rest)
    | _ => return (first, rest)

/-- Reads conditions that must all hold, and what follows them. -/
def joint? : Nat → List String → Option (Condition × List String)
  | 0, _ => none
  | fuel + 1, words => do
    let (first, rest) ← single? fuel words
    match rest with
    | "-a" :: rest =>
      let (second, rest) ← joint? fuel rest
      return (.both first second, rest)
    | _ => return (first, rest)

/-- Reads one condition, and what follows it. A missing one does not hold. -/
def single? : Nat → List String → Option (Condition × List String)
  | 0, _ => none
  | fuel + 1, words =>
    match words with
    | [] => some (.known false, [])
    | first :: rest =>
      match rest with
      | op :: right :: after =>
        if isBinary op then (binary? first op right).map fun condition => (condition, after)
        else prefixed? fuel first rest
      | _ => prefixed? fuel first rest

/-- Reads a condition that is no comparison. -/
def prefixed? : Nat → String → List String → Option (Condition × List String)
  | 0, _, _ => none
  | fuel + 1, first, rest =>
    match first, rest with
    | "!", _ :: _ => (single? fuel rest).map fun (condition, rest) => (.not condition, rest)
    | "(", _ :: _ => do
      let (condition, rest) ← alternatives? fuel rest
      match rest with
      | ")" :: rest => return (condition, rest)
      | _ => none
    | op, operand :: after =>
      match unary? op operand with
      | some condition => some (condition, after)
      | none => some (.known (first != ""), rest)
    | _, [] => some (.known (first != ""), [])

end

/-- The condition that words write; no words at all never hold. -/
def ofWords? (words : List String) : Option Condition :=
  if words.isEmpty then some (.known false)
  else
    match alternatives? (4 * words.length + 4) words with
    | some (condition, []) => some condition
    | _ => none

/-- The first path that must be looked at. -/
def path? : Condition → Option String
  | .known _ => none
  | .file _ path => some path
  | .not body => body.path?
  | .both left right | .either left right => left.path?.or right.path?

/-- The condition once it is known what stands at a path. -/
def settle (path : String) (found : Except Fault Entry) : Condition → Condition
  | .known holds => .known holds
  | .file question other =>
    if other = path then .known (question.answer found) else .file question other
  | .not body => .not (settle path found body)
  | .both left right => .both (settle path found left) (settle path found right)
  | .either left right => .either (settle path found left) (settle path found right)

/-- Whether a condition holds; an open question counts as no. -/
def holds : Condition → Bool
  | .known holds => holds
  | .file _ _ => false
  | .not body => !body.holds
  | .both left right => left.holds && right.holds
  | .either left right => left.holds || right.holds

end Condition

end LineScript.Shell
