/-!
# Patterns

The patterns of the shell: a star stands for any text, a question mark for any
character, and brackets for a character of a set. A quoted character stands for
itself.
-/

namespace LineScript.Shell

/-- A character, and whether it was quoted. -/
abbrev Glyph := Char × Bool

/-- What a piece of a pattern stands for. -/
inductive Piece where
  /-- Any text. -/
  | anyText
  /-- Any character. -/
  | anyChar
  /-- A character inside, or outside, some ranges. -/
  | among (negated : Bool) (ranges : List (Char × Char))
  /-- One character. -/
  | only (c : Char)
  deriving DecidableEq, Repr

namespace Piece

/-- A character of a set that may begin a range. -/
structure RangeStart where
  /-- The character. -/
  low : Char
  /-- Whether a dash followed it. -/
  dash : Bool

/-- The ranges of what was read and begins no range after all. -/
def RangeStart.ranges (start : Option RangeStart) : List (Char × Char) :=
  match start with
  | none => []
  | some ⟨low, false⟩ => [(low, low)]
  | some ⟨low, true⟩ => [(low, low), ('-', '-')]

/-- The ranges of a set up to its closing bracket, and what follows it. A
bracket right after the opening one belongs to the set. -/
def ranges (first : Bool) (start : Option RangeStart) :
    List Glyph → Option (List (Char × Char) × List Glyph)
  | [] => none
  | (c, quoted) :: rest =>
    if c = ']' ∧ !quoted ∧ !first then some (RangeStart.ranges start, rest)
    else
      match start with
      | some ⟨low, true⟩ =>
        (ranges false none rest).map fun (set, after) => ((low, c) :: set, after)
      | some ⟨low, false⟩ =>
        if c = '-' ∧ !quoted then ranges false (some ⟨low, true⟩) rest
        else
          (ranges false (some ⟨c, false⟩) rest).map fun (set, after) => ((low, low) :: set, after)
      | none => ranges false (some ⟨c, false⟩) rest

/-- A set after its opening bracket, and what follows it. -/
def set? (glyphs : List Glyph) : Option (Piece × List Glyph) :=
  match glyphs with
  | ('!', false) :: rest | ('^', false) :: rest =>
    (ranges true none rest).map fun (set, after) => (.among true set, after)
  | _ => (ranges true none glyphs).map fun (set, after) => (.among false set, after)

/-- The pieces of a pattern of at most so many characters. -/
def ofGlyphs : Nat → List Glyph → List Piece
  | 0, _ | _, [] => []
  | fuel + 1, (c, quoted) :: rest =>
    if quoted then .only c :: ofGlyphs fuel rest
    else if c = '*' then .anyText :: ofGlyphs fuel rest
    else if c = '?' then .anyChar :: ofGlyphs fuel rest
    else if c = '[' then
      match set? rest with
      | some (piece, after) => piece :: ofGlyphs fuel after
      | none => .only c :: ofGlyphs fuel rest
    else .only c :: ofGlyphs fuel rest

/-- Whether a piece that stands for one character stands for this one. -/
def accepts (c : Char) : Piece → Bool
  | .anyText => false
  | .anyChar => true
  | .among negated set => (set.any fun (low, high) => low ≤ c && c ≤ high) != negated
  | .only d => c = d

/-- Whether a text is of the form that pieces describe. -/
def covers : List Piece → List Char → Bool
  | [], text => text.isEmpty
  | .anyText :: rest, [] => covers rest []
  | .anyText :: rest, c :: text => covers rest (c :: text) || covers (.anyText :: rest) text
  | _ :: _, [] => false
  | piece :: rest, c :: text => accepts c piece && covers rest text
termination_by pieces text => pieces.length + text.length

end Piece

/-- A pattern. -/
abbrev Pattern := List Piece

/-- The pattern that glyphs write. -/
def Pattern.ofGlyphs (glyphs : List Glyph) : Pattern := Piece.ofGlyphs glyphs.length glyphs

/-- Whether a text has the form of a pattern. -/
def Pattern.covers (pattern : Pattern) (text : List Char) : Bool := Piece.covers pattern text

/-- The text without a beginning of a given form: the shortest such beginning,
or the longest. Without any, the whole text. -/
def Pattern.cutStart (pattern : Pattern) (longest : Bool) (text : List Char) : List Char :=
  let sizes := List.range (text.length + 1)
  let order := if longest then sizes.reverse else sizes
  match order.find? fun size => pattern.covers (text.take size) with
  | some size => text.drop size
  | none => text

/-- The text without an end of a given form, likewise. -/
def Pattern.cutEnd (pattern : Pattern) (longest : Bool) (text : List Char) : List Char :=
  let sizes := List.range (text.length + 1)
  let order := if longest then sizes else sizes.reverse
  match order.find? fun size => pattern.covers (text.drop size) with
  | some size => text.take size
  | none => text

end LineScript.Shell
