/-!
# UTF-8

Bytes are decoded one at a time by an automaton whose state is the part of a
character still open. Its output is a list of pieces: whole characters, and
stretches of bytes that belong to none. Both ways to decode a line read the
same pieces: the strict one stops at the first stretch and says where it is,
the lossy one shows each stretch as U+FFFD. A stretch is a longest prefix of
the bytes of some character, or a single byte that starts none.
-/

namespace LineScript

/-- A sequence of bytes. -/
abbrev Bytes := List UInt8

namespace Utf8

/-- The bytes that encode a text. -/
def encode (text : List Char) : Bytes := text.flatMap String.utf8EncodeChar

/-- What a stretch of input turned out to be. -/
inductive Piece where
  /-- The bytes of one character. -/
  | char (c : Char)
  /-- Bytes that begin no character, followed by something else. -/
  | invalid (length : Nat)
  /-- Bytes that begin a character, cut off by the end of the input. -/
  | incomplete (length : Nat)
  deriving DecidableEq, Repr

/-- The part of a character read so far. -/
inductive Open where
  /-- Between characters. -/
  | nothing
  /-- Inside a character: `taken` bytes are read and `missing + 1` are to come,
  the next of them between `low` and `high`; `bits` is the value so far. -/
  | inside (taken missing : Nat) (low high : UInt8) (bits : Nat)
  deriving DecidableEq, Repr

/-- Reads a byte between characters: the piece that it completes, if any, and
what stays open. The bounds on a second byte exclude overlong forms, surrogates
and values above U+10FFFF. -/
def first (b : UInt8) : List Piece × Open :=
  if b < 0x80 then ([.char (Char.ofNat b.toNat)], .nothing)
  else if b < 0xC2 then ([.invalid 1], .nothing)
  else if b < 0xE0 then ([], .inside 1 0 0x80 0xBF (b.toNat - 0xC0))
  else if b < 0xF0 then
    ([], .inside 1 1 (if b = 0xE0 then 0xA0 else 0x80) (if b = 0xED then 0x9F else 0xBF)
      (b.toNat - 0xE0))
  else if b < 0xF5 then
    ([], .inside 1 2 (if b = 0xF0 then 0x90 else 0x80) (if b = 0xF4 then 0x8F else 0xBF)
      (b.toNat - 0xF0))
  else ([.invalid 1], .nothing)

/-- Reads one byte. A byte that cannot continue the open character ends it as
an invalid stretch and is then read afresh. -/
def step (state : Open) (b : UInt8) : List Piece × Open :=
  match state with
  | .nothing => first b
  | .inside taken missing low high bits =>
    if low ≤ b ∧ b ≤ high then
      let bits := bits * 64 + (b.toNat - 0x80)
      match missing with
      | 0 => ([.char (Char.ofNat bits)], .nothing)
      | missing + 1 => ([], .inside (taken + 1) missing 0x80 0xBF bits)
    else
      let next := first b
      (.invalid taken :: next.1, next.2)

/-- The piece that the end of the input makes of what is still open. -/
def finish : Open → List Piece
  | .nothing => []
  | .inside taken .. => [.incomplete taken]

/-- The pieces of the remaining input, in a given state. -/
def run (state : Open) : Bytes → List Piece
  | [] => finish state
  | b :: rest =>
    let next := step state b
    next.1 ++ run next.2 rest

/-- The pieces of a byte sequence. -/
def pieces (bytes : Bytes) : List Piece := run .nothing bytes

/-- The character that stands for a piece where decoding must not fail. -/
def Piece.shown : Piece → Char
  | .char c => c
  | .invalid _ => Char.ofNat 0xFFFD
  | .incomplete _ => Char.ofNat 0xFFFD

/-- Decodes without failing: every stretch outside the characters becomes one
U+FFFD. -/
def decodeLossy (bytes : Bytes) : List Char := (pieces bytes).map Piece.shown

/-- Why bytes are not UTF-8. -/
inductive Malformed where
  /-- A stretch of `length` bytes at `index` begins no character. -/
  | invalid (length index : Nat)
  /-- The input ends inside the character that begins at `index`. -/
  | incomplete (index : Nat)
  deriving DecidableEq, Repr

/-- The wording of a decoding failure. -/
def Malformed.message : Malformed → String
  | .invalid length index => s!"invalid utf-8 sequence of {length} bytes from index {index}"
  | .incomplete index => s!"incomplete utf-8 byte sequence from index {index}"

/-- Collects the characters of pieces, of which the first begins at `index`. -/
def gather (index : Nat) : List Piece → Except Malformed (List Char)
  | [] => .ok []
  | .char c :: rest => do return c :: (← gather (index + c.utf8Size) rest)
  | .invalid length :: _ => .error (.invalid length index)
  | .incomplete _ :: _ => .error (.incomplete index)

/-- Decodes bytes that must be UTF-8 throughout. -/
def decode (bytes : Bytes) : Except Malformed (List Char) := gather 0 (pieces bytes)

/-- The text of bytes that must be UTF-8 throughout. -/
def decodeString (bytes : Bytes) : Except Malformed String := (decode bytes).map String.ofList

/-- The text of any bytes, each stretch outside the characters as one U+FFFD. -/
def decodeStringLossy (bytes : Bytes) : String := String.ofList (decodeLossy bytes)

/-- The bytes of a string. -/
def ofString (text : String) : Bytes := text.toUTF8.data.toList

/-- The bytes of a string encode its characters. -/
theorem ofString_eq_encode (text : String) : ofString text = encode text.toList := by
  conv => lhs; rw [← String.ofList_toList (s := text)]
  rw [ofString, String.toUTF8_eq_toByteArray, String.toByteArray_ofList]
  simp [List.utf8Encode, encode]

/-- Different strings have different bytes. -/
theorem ofString_injective {a b : String} (h : ofString a = ofString b) : a = b :=
  String.toByteArray_inj.1 (ByteArray.ext (Array.toList_inj.1 h))

/-- Nothing is decoded from nothing. -/
@[simp] theorem decodeLossy_nil : decodeLossy [] = [] := rfl

/-- A surrogate is no character: its first byte stands alone. -/
example : pieces [0xED, 0xA0, 0x80] = [.invalid 1, .invalid 1, .invalid 1] := by decide

/-- A character cut short by an ASCII byte is one stretch. -/
example : pieces [0xF0, 0x9F, 0x98, 0x41] = [.invalid 3, .char 'A'] := by decide

end Utf8

end LineScript
