/-!
# White space

The characters that separate words in a script, and the two ways in which a
line is cut at them: trimming both ends, and splitting at the first one. The
class is the Unicode property `White_Space`; it is larger than the four ASCII
characters of `Char.isWhitespace`, and zero-width characters are not in it.
-/

namespace LineScript.Text

/-- The characters with the Unicode property `White_Space`. -/
def isBlank (c : Char) : Bool :=
  let n := c.toNat
  (9 ≤ n && n ≤ 13) || n == 0x20 || n == 0x85 || n == 0xA0 || n == 0x1680 ||
    (0x2000 ≤ n && n ≤ 0x200A) || n == 0x2028 || n == 0x2029 || n == 0x202F ||
    n == 0x205F || n == 0x3000

/-- The text from its first non-blank character on. -/
def trimStart (text : List Char) : List Char := text.dropWhile isBlank

/-- The text up to and including its last non-blank character. -/
def trimEnd (text : List Char) : List Char := (text.reverse.dropWhile isBlank).reverse

/-- The text without the blanks around it. -/
def trim (text : List Char) : List Char := trimEnd (trimStart text)

/-- The text before the first blank and the text after it; `none` when there
is no blank. The blank itself belongs to neither piece. -/
def splitAtBlank? : List Char → Option (List Char × List Char)
  | [] => none
  | c :: rest =>
    if isBlank c then some ([], rest)
    else (splitAtBlank? rest).map fun pieces => (c :: pieces.1, pieces.2)

/-- The maximal runs of non-blank characters, in order. -/
def words (text : List Char) : List (List Char) :=
  (text.splitOnP isBlank).filter (· ≠ [])

/-- Splitting loses one blank and nothing else. -/
theorem eq_append_of_splitAtBlank? {text before after : List Char}
    (h : splitAtBlank? text = some (before, after)) :
    ∃ blank, isBlank blank = true ∧ text = before ++ blank :: after := by
  induction text generalizing before after with
  | nil => simp [splitAtBlank?] at h
  | cons c rest ih =>
    by_cases hc : isBlank c = true
    · simp only [splitAtBlank?, hc, if_true, Option.some.injEq, Prod.mk.injEq] at h
      exact ⟨c, hc, by simp [← h.1, ← h.2]⟩
    · simp only [splitAtBlank?, hc, Bool.false_eq_true, if_false, Option.map_eq_some_iff,
        Prod.mk.injEq] at h
      obtain ⟨⟨first, second⟩, hs, rfl, rfl⟩ := h
      obtain ⟨blank, hb, rfl⟩ := ih hs
      exact ⟨blank, hb, rfl⟩

/-- Splitting fails exactly on texts without a blank. -/
theorem splitAtBlank?_eq_none_iff {text : List Char} :
    splitAtBlank? text = none ↔ ∀ c ∈ text, isBlank c = false := by
  induction text with
  | nil => simp [splitAtBlank?]
  | cons c rest ih =>
    by_cases hc : isBlank c = true
    · simp [splitAtBlank?, hc]
    · simp [splitAtBlank?, hc, ih]

end LineScript.Text
