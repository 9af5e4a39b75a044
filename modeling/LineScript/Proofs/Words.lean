import Mathlib.Data.List.TakeWhile
import LineScript.Directive
import LineScript.Script

/-!
# Blanks around and between words

How a line is trimmed, cut at its blanks and searched for placeholders. Trimming takes
exactly the blanks at both ends; cutting takes the blanks after the first word; and a
placeholder is found in one of two pieces with a blank between them, or nowhere. Main
result: blanks around a text that has none at its ends do not matter, and a text without
placeholders is made ready as it is.
-/

namespace LineScript

namespace Text

/-- Whether a text has no blank at its ends. -/
structure IsBare (text : List Char) : Prop where
  /-- It does not begin with a blank. -/
  head : ∀ c ∈ text.head?, isBlank c = false
  /-- It does not end with a blank. -/
  last : ∀ c ∈ text.getLast?, isBlank c = false

/-- A text has no blank if every character is checked to be none. -/
theorem word_of_all {text : List Char} (h : (text.all fun c => !isBlank c) = true) :
    ∀ c ∈ text, isBlank c = false := by
  intro c hc
  rw [← Bool.not_eq_true']
  exact List.all_eq_true.mp h c hc

/-- What may stand at an end of a text, if anything stands there. -/
theorem end_of_all {end? : Option Char} (h : (end?.all fun c => !isBlank c) = true) :
    ∀ c ∈ end?, isBlank c = false := by
  rintro c rfl
  rwa [← Bool.not_eq_true']

/-- Blanks before a text are dropped. -/
theorem trimStart_append {blanks : List Char} (h : ∀ c ∈ blanks, isBlank c = true)
    (text : List Char) : trimStart (blanks ++ text) = trimStart text :=
  List.dropWhile_append_of_pos h

/-- A text that begins with no blank is kept. -/
theorem trimStart_of_head {text : List Char} (h : ∀ c ∈ text.head?, isBlank c = false) :
    trimStart text = text := by
  cases text with
  | nil => rfl
  | cons c rest => exact List.dropWhile_cons_of_neg (by simp [h c rfl])

/-- Where trimming stops there is no blank. -/
theorem head_trimStart (text : List Char) : ∀ c ∈ (trimStart text).head?, isBlank c = false := by
  induction text with
  | nil => exact fun _ h => nomatch h
  | cons c rest ih =>
    cases hc : isBlank c with
    | true =>
      rw [trimStart, List.dropWhile_cons_of_pos hc]
      exact ih
    | false =>
      rw [trimStart, List.dropWhile_cons_of_neg (by simp [hc])]
      rintro _ ⟨⟩
      exact hc

/-- What is dropped from the begin of a text are blanks. -/
theorem exists_append_trimStart (text : List Char) :
    ∃ blanks, text = blanks ++ trimStart text ∧ ∀ c ∈ blanks, isBlank c = true :=
  ⟨text.takeWhile isBlank, List.takeWhile_append_dropWhile.symm,
    fun _ hc => List.mem_takeWhile_imp hc⟩

/-- Blanks after a text are dropped. -/
theorem trimEnd_append {blanks : List Char} (h : ∀ c ∈ blanks, isBlank c = true)
    (text : List Char) : trimEnd (text ++ blanks) = trimEnd text := by
  have hreverse : ∀ c ∈ blanks.reverse, isBlank c = true := fun c hc =>
    h c (List.mem_reverse.mp hc)
  rw [trimEnd, List.reverse_append, List.dropWhile_append_of_pos hreverse, trimEnd]

/-- A text that ends with no blank is kept. -/
theorem trimEnd_of_last {text : List Char} (h : ∀ c ∈ text.getLast?, isBlank c = false) :
    trimEnd text = text := by
  have hhead : ∀ c ∈ text.reverse.head?, isBlank c = false := by
    rw [List.head?_reverse]
    exact h
  have hkept : text.reverse.dropWhile isBlank = text.reverse := trimStart_of_head hhead
  rw [trimEnd, hkept, List.reverse_reverse]

/-- Where trimming at the end stops there is no blank. -/
theorem last_trimEnd (text : List Char) : ∀ c ∈ (trimEnd text).getLast?, isBlank c = false := by
  rw [trimEnd, List.getLast?_reverse]
  exact head_trimStart text.reverse

/-- What is dropped from the end of a text are blanks. -/
theorem exists_trimEnd_append (text : List Char) :
    ∃ blanks, text = trimEnd text ++ blanks ∧ ∀ c ∈ blanks, isBlank c = true := by
  obtain ⟨blanks, hreverse, hblanks⟩ := exists_append_trimStart text.reverse
  refine ⟨blanks.reverse, ?_, fun c hc => hblanks c (List.mem_reverse.mp hc)⟩
  rw [← List.reverse_inj, hreverse, List.reverse_append, List.reverse_reverse, trimEnd,
    List.reverse_reverse, trimStart]

/-- Trimming takes away blanks around a text that has none at its ends. -/
theorem exists_trimmed (text : List Char) :
    ∃ before after, text = before ++ trim text ++ after ∧ (∀ c ∈ before, isBlank c = true) ∧
      (∀ c ∈ after, isBlank c = true) ∧ IsBare (trim text) := by
  obtain ⟨before, hbefore, hblanks⟩ := exists_append_trimStart text
  obtain ⟨after, hafter, hblanks'⟩ := exists_trimEnd_append (trimStart text)
  refine ⟨before, after, ?_, hblanks, hblanks', ?_, last_trimEnd _⟩
  · rw [trim, List.append_assoc, ← hafter]
    exact hbefore
  · intro c hc
    refine head_trimStart text c ?_
    rw [hafter, List.head?_append]
    exact congrArg (Option.or · after.head?) hc

/-- Blanks after a text do not matter for trimming. -/
theorem trim_append {blanks : List Char} (h : ∀ c ∈ blanks, isBlank c = true)
    (text : List Char) : trim (text ++ blanks) = trim text := by
  rw [trim, trimStart, List.dropWhile_append, trim, trimStart]
  cases hkept : text.dropWhile isBlank with
  | nil =>
    have hnone : blanks.dropWhile isBlank = [] := List.dropWhile_eq_nil_iff.mpr h
    rw [hnone]
    rfl
  | cons c rest => exact trimEnd_append h (c :: rest)

/-- Trimming takes blanks off both ends of a text that has none there itself. -/
theorem trim_padded {before text after : List Char} (htext : IsBare text)
    (hbefore : ∀ c ∈ before, isBlank c = true) (hafter : ∀ c ∈ after, isBlank c = true) :
    trim (before ++ text ++ after) = text := by
  rw [trim_append hafter, trim, trimStart_append hbefore, trimStart_of_head htext.head,
    trimEnd_of_last htext.last]

/-- A word with a blank behind it is cut off there. -/
theorem splitAtBlank?_append {word : List Char} (h : ∀ c ∈ word, isBlank c = false) {blank : Char}
    (hblank : isBlank blank = true) (rest : List Char) :
    splitAtBlank? (word ++ blank :: rest) = some (word, rest) := by
  induction word with
  | nil => exact if_pos hblank
  | cons c word ih =>
    obtain ⟨hc, hword⟩ := List.forall_mem_cons.mp h
    rw [List.cons_append, splitAtBlank?, ih hword]
    simp only [hc, Bool.false_eq_true, if_false, Option.map_some]

/-- What is cut off is a word. -/
theorem splitAtBlank?_word {text word rest : List Char}
    (h : splitAtBlank? text = some (word, rest)) : ∀ c ∈ word, isBlank c = false := by
  induction text generalizing word with
  | nil => cases h
  | cons c text ih =>
    cases hc : isBlank c with
    | true =>
      rw [splitAtBlank?, if_pos hc] at h
      cases h
      exact List.forall_mem_nil _
    | false =>
      simp only [splitAtBlank?, hc, Bool.false_eq_true, if_false, Option.map_eq_some_iff] at h
      obtain ⟨⟨word', rest'⟩, hpieces, heq⟩ := h
      cases heq
      exact List.forall_mem_cons.mpr ⟨hc, ih hpieces⟩

end Text

namespace Directive

open Text

/-- The keyword of a line is its first word. -/
theorem splitKeyword_fst (line : List Char) :
    (splitKeyword line).1 = line.takeWhile fun c => !isBlank c := by
  have hword (word : List Char) (h : ∀ c ∈ word, isBlank c = false) :
      ∀ c ∈ word, (!isBlank c) = true := fun c hc => by rw [h c hc]; rfl
  cases hsplit : splitAtBlank? line with
  | none =>
    rw [splitKeyword, hsplit,
      List.takeWhile_eq_self_iff.mpr (hword line (splitAtBlank?_eq_none_iff.mp hsplit))]
  | some pieces =>
    obtain ⟨word, rest⟩ := pieces
    obtain ⟨blank, hblank, heq⟩ := eq_append_of_splitAtBlank? hsplit
    have hend : (blank :: rest).takeWhile (fun c => !isBlank c) = [] :=
      List.takeWhile_cons_of_neg (by simp [hblank])
    rw [splitKeyword, hsplit, heq,
      List.takeWhile_append_of_pos (hword word (splitAtBlank?_word hsplit)), hend,
      List.append_nil]

/-- A keyword and the blanks after it are cut off. -/
theorem splitKeyword_append {word gap rest : List Char} (hword : ∀ c ∈ word, isBlank c = false)
    (hgap : ∀ c ∈ gap, isBlank c = true) (hne : gap ≠ []) :
    splitKeyword (word ++ (gap ++ rest)) = (word, trimStart rest) := by
  cases gap with
  | nil => exact absurd rfl hne
  | cons blank gap =>
    obtain ⟨hblank, hblanks⟩ := List.forall_mem_cons.mp hgap
    rw [splitKeyword, List.cons_append, splitAtBlank?_append hword hblank]
    exact congrArg (word, ·) (trimStart_append hblanks rest)

/-- A line is its keyword, blanks and its arguments. -/
theorem splitKeyword_eq {line keyword arguments : List Char}
    (h : splitKeyword line = (keyword, arguments)) :
    ∃ gap, line = keyword ++ (gap ++ arguments) ∧ (∀ c ∈ gap, isBlank c = true) ∧
      (arguments ≠ [] → gap ≠ []) ∧ ∀ c ∈ arguments.head?, isBlank c = false := by
  cases hsplit : splitAtBlank? line with
  | none =>
    rw [splitKeyword, hsplit] at h
    cases h
    exact ⟨[], (List.append_nil _).symm, List.forall_mem_nil _, fun hne => absurd rfl hne,
      fun _ hc => nomatch hc⟩
  | some pieces =>
    obtain ⟨word, rest⟩ := pieces
    rw [splitKeyword, hsplit] at h
    cases h
    obtain ⟨blank, hblank, rfl⟩ := eq_append_of_splitAtBlank? hsplit
    obtain ⟨blanks, hrest, hblanks⟩ := exists_append_trimStart rest
    refine ⟨blank :: blanks, ?_, List.forall_mem_cons.mpr ⟨hblank, hblanks⟩,
      fun _ => List.cons_ne_nil _ _, head_trimStart rest⟩
    rw [List.cons_append, ← hrest]

/-- The arguments that set a variable are a name, blanks and a value. -/
theorem parseEnv_eq {arguments : List Char} {directive : Directive}
    (h : parseEnv arguments = .ok directive) :
    ∃ key gap value, arguments = key ++ (gap ++ value) ∧ (∀ c ∈ key, isBlank c = false) ∧
      (∀ c ∈ gap, isBlank c = true) ∧ gap ≠ [] ∧ (∀ c ∈ value.head?, isBlank c = false) ∧
      value ≠ [] ∧ directive = .env (String.ofList key) (String.ofList value) := by
  cases hsplit : splitAtBlank? arguments with
  | none =>
    rw [parseEnv, hsplit] at h
    cases h
  | some pieces =>
    obtain ⟨key, rest⟩ := pieces
    obtain ⟨blank, hblank, rfl⟩ := eq_append_of_splitAtBlank? hsplit
    obtain ⟨blanks, hrest, hblanks⟩ := exists_append_trimStart rest
    rw [parseEnv, hsplit] at h
    cases hvalue : trimStart rest with
    | nil =>
      simp only [hvalue] at h
      cases h
    | cons c value =>
      simp only [hvalue] at h
      cases h
      refine ⟨key, blank :: blanks, c :: value, ?_, splitAtBlank?_word hsplit,
        List.forall_mem_cons.mpr ⟨hblank, hblanks⟩, List.cons_ne_nil _ _, ?_,
        List.cons_ne_nil _ _, rfl⟩
      · rw [List.cons_append, ← hvalue, ← hrest]
      · rw [← hvalue]
        exact head_trimStart rest

end Directive

namespace Script

open Text

/-- A text without placeholders is kept. -/
theorem substitute_of_plain {text : List Char} (h : ¬ placeholder.toList <:+: text)
    (directory : List Char) : substitute directory text = text := by
  induction text using substitute.induct with
  | case1 rest ih =>
    exact absurd ⟨[], rest, rfl⟩ h
  | case2 c rest hnot ih =>
    have hrest : ¬ placeholder.toList <:+: rest := fun hfound =>
      h (hfound.trans (List.suffix_cons c rest).isInfix)
    rw [substitute, ih hrest]
    exact hnot
  | case3 => rfl

/-- A text without a dollar sign has no placeholder. -/
theorem plain_of_not_mem {text : List Char} (h : '$' ∉ text) :
    ¬ placeholder.toList <:+: text :=
  fun hfound => h (hfound.subset List.mem_cons_self)

/-- A placeholder in two texts with a character between them that is in no placeholder is in one
of the two. -/
theorem infix_of_append_cons {first second : List Char} {between : Char}
    (hnone : between ∉ placeholder.toList)
    (hfound : placeholder.toList <:+: first ++ between :: second) :
    placeholder.toList <:+: first ∨ placeholder.toList <:+: second := by
  induction first with
  | nil =>
    rw [List.nil_append, List.infix_cons_iff] at hfound
    rcases hfound with ⟨rest, hrest⟩ | hfound
    · obtain ⟨hb, _⟩ := List.cons.inj hrest
      exact absurd (hb ▸ List.mem_cons_self) hnone
    · exact .inr hfound
  | cons c first ih =>
    rw [List.cons_append, List.infix_cons_iff] at hfound
    rcases hfound with hbegins | hfound
    · have hown : c :: first <+: c :: (first ++ between :: second) :=
        List.prefix_append (c :: first) (between :: second)
      rcases List.prefix_or_prefix_of_prefix hbegins hown with hwhole | ⟨rest, hrest⟩
      · exact .inl hwhole.isInfix
      · -- The placeholder would have to go on with the character between.
        rw [← hrest, ← List.cons_append, List.prefix_append_right_inj] at hbegins
        cases rest with
        | nil =>
          rw [List.append_nil] at hrest
          exact .inl (hrest ▸ List.infix_rfl)
        | cons b rest =>
          obtain ⟨later, hlater⟩ := hbegins
          obtain ⟨hb, _⟩ := List.cons.inj hlater
          refine absurd ?_ hnone
          rw [← hrest, ← hb]
          exact List.mem_append_right _ List.mem_cons_self
    · exact (ih hfound).imp_left fun hfirst => hfirst.trans (List.suffix_cons c first).isInfix

/-- Two texts without placeholders have none with a character between them that is in no
placeholder. -/
theorem plain_append_cons {first second : List Char} {between : Char}
    (hnone : between ∉ placeholder.toList) (hfirst : ¬ placeholder.toList <:+: first)
    (hsecond : ¬ placeholder.toList <:+: second) :
    ¬ placeholder.toList <:+: first ++ between :: second := fun hfound =>
  (infix_of_append_cons hnone hfound).elim hfirst hsecond

/-- Two texts without placeholders have none with a blank between them, as a placeholder has
no blank in it. -/
theorem plain_append_blank {first second : List Char} {blank : Char} (hblank : isBlank blank = true)
    (hfirst : ¬ placeholder.toList <:+: first) (hsecond : ¬ placeholder.toList <:+: second) :
    ¬ placeholder.toList <:+: first ++ blank :: second := by
  refine plain_append_cons (fun hmem => ?_) hfirst hsecond
  have hwords : ∀ c ∈ placeholder.toList, isBlank c = false := word_of_all (by decide)
  rw [hwords blank hmem] at hblank
  cases hblank

/-- A line that trimming leaves without a placeholder is made ready by trimming. -/
theorem prepareLine_of_plain {raw text : List Char} (htrim : trim raw = text)
    (hplain : ¬ placeholder.toList <:+: text) (baseDir : String) :
    prepareLine (String.ofList raw) baseDir = String.ofList text := by
  rw [prepareLine, String.toList_ofList, htrim, substitute_of_plain hplain]

end Script

end LineScript
