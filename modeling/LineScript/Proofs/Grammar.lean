import LineScript.Command
import LineScript.Proofs.RoundTrip

/-!
# The grammar of a line

A line is cut at its first blank, and what is left of it is cut again. The grammar of a line
speaks of all its words at once, the longest runs without a blank, and of the text from one
of them on. Main result: a line that begins with no blank asks for what the grammar says, and
every name in an environment that a script builds up is a word, every value begins with one.
-/

namespace LineScript

open Text

namespace Text

/-- The text from one of its words on, counted from 0. -/
def fromWord : Nat → List Char → List Char
  | 0, text => trimStart text
  | count + 1, text => fromWord count ((trimStart text).dropWhile fun c => !isBlank c)

/-- A blank before a text adds no word. -/
theorem words_blank {blank : Char} (h : isBlank blank = true) (text : List Char) :
    words (blank :: text) = words text := by
  rw [words, List.splitOnP_cons_eq_if_modifyHead, if_pos h, List.filter_cons_of_neg (by simp),
    words]

/-- Blanks before a text add no words. -/
theorem words_trimStart (text : List Char) : words (trimStart text) = words text := by
  induction text with
  | nil => rfl
  | cons c rest ih =>
    cases hc : isBlank c with
    | true => rw [trimStart, List.dropWhile_cons_of_pos hc, words_blank hc, ← ih, trimStart]
    | false => rw [trimStart_of_head (by rintro _ ⟨⟩; exact hc)]

/-- A word at the begin of a text is its first word. -/
theorem words_append {word rest : List Char} (hword : ∀ c ∈ word, isBlank c = false)
    (hne : word ≠ []) (hrest : ∀ c ∈ rest.head?, isBlank c = true) :
    words (word ++ rest) = word :: words rest := by
  cases rest with
  | nil =>
    rw [List.append_nil, words, List.splitOnP_eq_singleton hword,
      List.filter_cons_of_pos (by simpa using hne)]
    rfl
  | cons blank rest =>
    have hblank : isBlank blank = true := hrest blank rfl
    rw [words, List.splitOnP_append_cons_of_forall_mem hword blank hblank,
      List.filter_cons_of_pos (by simpa using hne), words_blank hblank, words]

/-- What stands behind a word begins with a blank, if it is not empty. -/
theorem head_dropWhile_word (text : List Char) :
    ∀ c ∈ (text.dropWhile fun c => !isBlank c).head?, isBlank c = true := by
  intro c hc
  have hstop := List.head?_dropWhile_not (fun c => !isBlank c) text
  rw [hc] at hstop
  simpa using hstop

/-- A text that begins with no blank begins with its first word. -/
theorem words_of_head {text : List Char} (h : ∀ c ∈ text.head?, isBlank c = false)
    (hne : text ≠ []) :
    words text = (text.takeWhile fun c => !isBlank c) ::
      words (text.dropWhile fun c => !isBlank c) := by
  have hword : ∀ c ∈ text.takeWhile fun c => !isBlank c, isBlank c = false := fun c hc => by
    simpa using List.mem_takeWhile_imp hc
  have hfirst : (text.takeWhile fun c => !isBlank c) ≠ [] := by
    cases text with
    | nil => exact absurd rfl hne
    | cons c rest => simp [h c rfl]
  conv => lhs; rw [← List.takeWhile_append_dropWhile (p := fun c => !isBlank c) (l := text)]
  exact words_append hword hfirst (head_dropWhile_word text)

/-- A text that begins with no blank has a word unless it is empty. -/
theorem words_eq_nil_iff {text : List Char} (h : ∀ c ∈ text.head?, isBlank c = false) :
    words text = [] ↔ text = [] := by
  constructor
  · intro hnone
    by_contra hne
    rw [words_of_head h hne] at hnone
    cases hnone
  · rintro rfl
    rfl

/-- Blanks before a text do not matter for the text from one of its words on. -/
theorem fromWord_trimStart (count : Nat) (text : List Char) :
    fromWord count (trimStart text) = fromWord count text := by
  have htwice : trimStart (trimStart text) = trimStart text :=
    trimStart_of_head (head_trimStart text)
  cases count with
  | zero => exact htwice
  | succ count => rw [fromWord, htwice, fromWord]

/-- Words are counted on from a later one. -/
theorem fromWord_succ (count : Nat) (text : List Char) :
    fromWord (count + 1) text = fromWord count (fromWord 1 text) := by
  rw [fromWord, fromWord, fromWord, fromWord_trimStart]

/-- The first word does not matter for the text from a later one on. -/
theorem fromWord_append {word rest : List Char} (hword : ∀ c ∈ word, isBlank c = false)
    (hne : word ≠ []) (hrest : ∀ c ∈ rest.head?, isBlank c = true) (count : Nat) :
    fromWord (count + 1) (word ++ rest) = fromWord count rest := by
  have hhead : ∀ c ∈ (word ++ rest).head?, isBlank c = false := by
    cases word with
    | nil => exact absurd rfl hne
    | cons c word =>
      rintro _ ⟨⟩
      exact hword c List.mem_cons_self
  have hkept : (word ++ rest).dropWhile (fun c => !isBlank c) = rest := by
    rw [List.dropWhile_append_of_pos (fun c hc => by simp [hword c hc])]
    cases rest with
    | nil => rfl
    | cons blank rest => exact List.dropWhile_cons_of_neg (by simp [hrest blank rfl])
  rw [fromWord, trimStart_of_head hhead, hkept]

end Text

namespace Directive

/-- What a line without a marker may ask for, told by its words. -/
inductive ToldByWords (line : List Char) : Except FormatError Directive → Prop
  /-- A variable, whose value is the text from the third word on. -/
  | env {key third more} (h : words line = "ENV".toList :: key :: third :: more) :
      ToldByWords line (.ok (.env (String.ofList key) (String.ofList (fromWord 2 line))))
  /-- A variable without a name or without a value. -/
  | envIncomplete {rest reason} (h : words line = "ENV".toList :: rest) (hfew : rest.length < 2) :
      ToldByWords line (.error reason)
  /-- Forgetting all variables. -/
  | envClear (h : words line = ["ENVCLEAR".toList]) : ToldByWords line (.ok .envClear)
  /-- A restart. -/
  | restart (h : words line = ["RESTART".toList]) : ToldByWords line (.ok .restart)
  /-- More than the keyword where it must stand alone. -/
  | unexpected {keyword argument more reason}
      (hkeyword : keyword = "ENVCLEAR" ∨ keyword = "RESTART")
      (h : words line = keyword.toList :: argument :: more) : ToldByWords line (.error reason)
  /-- A wait. -/
  | delay {more duration} (h : words line = "DELAY".toList :: more)
      (hparse : parseDelay (fromWord 1 line) = .ok duration) :
      ToldByWords line (.ok (.delay duration))
  /-- A wait for no duration. -/
  | delayInvalid {more reason} (h : words line = "DELAY".toList :: more)
      (hparse : parseDelay (fromWord 1 line) = .error reason) : ToldByWords line (.error reason)
  /-- A text, which is the line. -/
  | send {first more} (h : words line = first :: more)
      (hother : ∀ keyword ∈ keywords, first ≠ keyword.toList) :
      ToldByWords line (.ok (.send (String.ofList line)))

/-- The first cut takes off the first word of a line. -/
theorem splitKeyword_words {line keyword arguments : List Char}
    (hhead : ∀ c ∈ line.head?, isBlank c = false) (hne : line ≠ [])
    (h : splitKeyword line = (keyword, arguments)) :
    words line = keyword :: words arguments ∧ arguments = fromWord 1 line ∧
      ∀ c ∈ arguments.head?, isBlank c = false := by
  obtain ⟨gap, hline, hgap, hgapne, harguments⟩ := splitKeyword_eq h
  have hkeyword : keyword = line.takeWhile fun c => !isBlank c := by
    rw [← splitKeyword_fst, h]
  have hword : ∀ c ∈ keyword, isBlank c = false := fun c hc => by
    rw [hkeyword] at hc
    simpa using List.mem_takeWhile_imp hc
  have hkeywordne : keyword ≠ [] := by
    cases line with
    | nil => exact absurd rfl hne
    | cons c rest =>
      rw [hkeyword]
      simp [hhead c rfl]
  have hrest : ∀ c ∈ (gap ++ arguments).head?, isBlank c = true := by
    cases gap with
    | nil =>
      have hnone : arguments = [] := by
        by_contra hsome
        exact hgapne hsome rfl
      rw [hnone]
      exact fun c hc => (Option.not_mem_none c hc).elim
    | cons blank gap =>
      rintro _ ⟨⟩
      exact hgap blank List.mem_cons_self
  have htrim : trimStart (gap ++ arguments) = arguments := by
    rw [trimStart_append hgap, trimStart_of_head harguments]
  refine ⟨?_, ?_, harguments⟩
  · rw [hline, words_append hword hkeywordne hrest, ← words_trimStart (gap ++ arguments), htrim]
  · rw [hline, fromWord_append hword hkeywordne hrest, fromWord, htrim]

/-- The second cut takes off the name of a variable, and finds too little exactly if there are
not two words. -/
theorem parseEnv_words {arguments : List Char} (hhead : ∀ c ∈ arguments.head?, isBlank c = false) :
    (∃ key second more, words arguments = key :: second :: more ∧
        parseEnv arguments =
          .ok (.env (String.ofList key) (String.ofList (fromWord 1 arguments)))) ∨
      (words arguments).length < 2 ∧ ∃ reason, parseEnv arguments = .error reason := by
  cases hsplit : splitAtBlank? arguments with
  | none =>
    right
    refine ⟨?_, _, by rw [parseEnv, hsplit]⟩
    have hword := splitAtBlank?_eq_none_iff.mp hsplit
    by_cases hne : arguments = []
    · rw [(words_eq_nil_iff hhead).mpr hne]
      exact Nat.two_pos
    · have hall : words (arguments ++ []) = arguments :: words [] :=
        words_append hword hne fun c hc => (Option.not_mem_none c hc).elim
      rw [List.append_nil] at hall
      rw [hall]
      exact Nat.one_lt_two
  | some pieces =>
    obtain ⟨key, rest⟩ := pieces
    have hkey := splitAtBlank?_word hsplit
    obtain ⟨blank, hblank, rfl⟩ := eq_append_of_splitAtBlank? hsplit
    have hkeyne : key ≠ [] := by
      rintro rfl
      rw [hhead blank rfl] at hblank
      cases hblank
    have hbehind : ∀ c ∈ (blank :: rest).head?, isBlank c = true := by
      rintro _ ⟨⟩
      exact hblank
    have hwords : words (key ++ blank :: rest) = key :: words (trimStart rest) := by
      rw [words_append hkey hkeyne hbehind, words_blank hblank, words_trimStart]
    have hvalue : fromWord 1 (key ++ blank :: rest) = trimStart rest := by
      rw [fromWord_append hkey hkeyne hbehind, fromWord, trimStart,
        List.dropWhile_cons_of_pos hblank, trimStart]
    cases htrim : trimStart rest with
    | nil =>
      right
      refine ⟨?_, .envIncomplete (String.ofList key), ?_⟩
      · rw [hwords, htrim]
        exact Nat.one_lt_two
      · simp only [parseEnv, hsplit, htrim]
    | cons c value =>
      left
      have hbegin : ∀ c ∈ (trimStart rest).head?, isBlank c = false := head_trimStart rest
      have hsecond := words_of_head hbegin (by rw [htrim]; exact List.cons_ne_nil _ _)
      refine ⟨key, _, _, hwords.trans (congrArg (key :: ·) hsecond), ?_⟩
      simp only [parseEnv, hsplit, hvalue, htrim]

/-- A keyword that must stand alone does so exactly if no word follows. -/
theorem withoutArguments_words {keyword : String} {directive : Directive} {arguments : List Char}
    (hhead : ∀ c ∈ arguments.head?, isBlank c = false) :
    words arguments = [] ∧ withoutArguments keyword directive arguments = .ok directive ∨
      ∃ argument more reason, words arguments = argument :: more ∧
        withoutArguments keyword directive arguments = .error reason := by
  cases arguments with
  | nil => exact .inl ⟨rfl, rfl⟩
  | cons c rest =>
    exact .inr ⟨_, _, _, words_of_head hhead (List.cons_ne_nil c rest), rfl⟩

/-- What is read by the first word of a line is told by all its words. -/
theorem ofWords_told {line : List Char} (hhead : ∀ c ∈ line.head?, isBlank c = false)
    (hne : line ≠ []) : ToldByWords line (ofWords line) := by
  rcases hsplit : splitKeyword line with ⟨keyword, arguments⟩
  obtain ⟨hwords, hrest, harguments⟩ := splitKeyword_words hhead hne hsplit
  rw [ofWords, hsplit]
  dsimp only
  split
  · rename_i henv
    subst henv
    rcases parseEnv_words harguments with ⟨key, second, more, htwo, hparse⟩ | ⟨hfew, reason, hparse⟩
    · have hvalue : fromWord 2 line = fromWord 1 arguments := by rw [fromWord_succ, ← hrest]
      rw [hparse, ← hvalue]
      exact .env (hwords.trans (congrArg _ htwo))
    · rw [hparse]
      exact .envIncomplete hwords hfew
  · rename_i henv
    split
    · rename_i hclear
      subst hclear
      rcases withoutArguments_words harguments with
        ⟨hnone, hread⟩ | ⟨argument, more, reason, hsome, hread⟩
      · rw [hread]
        exact .envClear (hwords.trans (congrArg _ hnone))
      · rw [hread]
        exact .unexpected (.inl rfl) (hwords.trans (congrArg _ hsome))
    · rename_i hclear
      split
      · rename_i hrestart
        subst hrestart
        rcases withoutArguments_words harguments with
          ⟨hnone, hread⟩ | ⟨argument, more, reason, hsome, hread⟩
        · rw [hread]
          exact .restart (hwords.trans (congrArg _ hnone))
        · rw [hread]
          exact .unexpected (.inr rfl) (hwords.trans (congrArg _ hsome))
      · rename_i hrestart
        split
        · rename_i hdelay
          subst hdelay
          rw [hrest]
          cases hparse : parseDelay (fromWord 1 line) with
          | ok duration => exact .delay hwords hparse
          | error reason => exact .delayInvalid hwords hparse
        · rename_i hdelay
          refine .send hwords ?_
          simp only [keywords, List.forall_mem_cons, List.not_mem_nil, false_implies, implies_true,
            and_true]
          exact ⟨henv, hclear, hrestart, hdelay⟩

/-- What the grammar says about a line without a marker: which words, and which text behind
them, are needed for each answer. -/
structure Grammar (line : List Char) (asked : Except FormatError Directive) : Prop where
  /-- A variable needs three words or more; the second is its name, and its value is the text
  from the third on. -/
  env : ∀ key value, asked = .ok (.env key value) ↔
    ∃ third more, words line = "ENV".toList :: key.toList :: third :: more ∧
      value.toList = fromWord 2 line
  /-- To forget all variables is one word. -/
  envClear : asked = .ok .envClear ↔ words line = ["ENVCLEAR".toList]
  /-- A restart is one word. -/
  restart : asked = .ok .restart ↔ words line = ["RESTART".toList]
  /-- A wait needs a duration, which is the text from the second word on. -/
  delay : ∀ duration, asked = .ok (.delay duration) ↔
    (words line).head? = some "DELAY".toList ∧ parseDelay (fromWord 1 line) = .ok duration
  /-- A keyword with too few words, too many words or no duration is an error. -/
  error : (∃ reason, asked = .error reason) ↔
    (words line).head? = some "ENV".toList ∧ (words line).length < 3 ∨
      ((words line).head? = some "ENVCLEAR".toList ∨ (words line).head? = some "RESTART".toList) ∧
        1 < (words line).length ∨
      (words line).head? = some "DELAY".toList ∧
        ∃ reason, parseDelay (fromWord 1 line) = .error reason
  /-- Every other line is a text, as it is. -/
  send : ∀ text, asked = .ok (.send text) ↔
    text.toList = line ∧ ∀ keyword ∈ keywords, (words line).head? ≠ some keyword.toList

/-- What is told by the words of a line is what the grammar says. -/
theorem ToldByWords.grammar {line : List Char} {asked : Except FormatError Directive}
    (h : ToldByWords line asked) : Grammar line asked := by
  have hsame (word : List Char) (text : String) : String.ofList word = text ↔ text.toList = word :=
    ⟨fun heq => heq ▸ String.toList_ofList, fun heq => heq ▸ String.ofList_toList⟩
  have hsame' (word : List Char) (text : String) : word = text.toList ↔ text.toList = word :=
    eq_comm
  cases h with
  | env h => constructor <;> simp [h, keywords, hsame, hsame']
  | @envIncomplete rest reason h hfew =>
    cases rest with
    | nil => constructor <;> simp [h, keywords]
    | cons key more =>
      cases more with
      | nil => constructor <;> simp [h, keywords]
      | cons second more => simp only [List.length_cons] at hfew; omega
  | envClear h => constructor <;> simp [h, keywords]
  | restart h => constructor <;> simp [h, keywords]
  | unexpected hkeyword h => rcases hkeyword with rfl | rfl <;> constructor <;> simp [h, keywords]
  | delay h hparse => constructor <;> simp [h, hparse, keywords]
  | delayInvalid h hparse => constructor <;> simp [h, hparse, keywords]
  | @send first more h hother =>
    have henv : first ≠ ['E', 'N', 'V'] := hother "ENV" (by decide)
    have hclear : first ≠ ['E', 'N', 'V', 'C', 'L', 'E', 'A', 'R'] := hother "ENVCLEAR" (by decide)
    have hrestart : first ≠ ['R', 'E', 'S', 'T', 'A', 'R', 'T'] := hother "RESTART" (by decide)
    have hdelay : first ≠ ['D', 'E', 'L', 'A', 'Y'] := hother "DELAY" (by decide)
    constructor <;> simp [h, keywords, henv, hclear, hrestart, hdelay, hsame]

/-- What is read by the first word of a line is no marker and not ignored; a variable is told by
what stands behind the keyword, and so is a wait, and a text is the line. -/
theorem ofWords_ok {line : List Char} {directive : Directive} (h : ofWords line = .ok directive) :
    (∃ key value arguments, directive = .env key value ∧
        (∀ c ∈ arguments.head?, isBlank c = false) ∧ parseEnv arguments = .ok (.env key value)) ∨
      directive = .envClear ∨ directive = .restart ∨
      (∃ duration, directive = .delay duration ∧
        parseDelay (splitKeyword line).2 = .ok duration) ∨
      directive = .send (String.ofList line) := by
  rcases hsplit : splitKeyword line with ⟨keyword, arguments⟩
  obtain ⟨_, _, _, _, hhead⟩ := splitKeyword_eq hsplit
  simp only [ofWords, hsplit] at h
  split at h
  · obtain ⟨_, _, _, _, _, _, _, _, _, rfl⟩ := parseEnv_eq h
    exact .inl ⟨_, _, arguments, rfl, hhead, h⟩
  · split at h
    · exact .inr (.inl (withoutArguments_eq h).2)
    · split at h
      · exact .inr (.inr (.inl (withoutArguments_eq h).2))
      · split at h
        · cases hparse : parseDelay arguments with
          | error reason =>
            rw [hparse] at h
            cases h
          | ok duration =>
            rw [hparse] at h
            cases h
            exact .inr (.inr (.inr (.inl ⟨_, rfl, rfl⟩)))
        · cases h
          exact .inr (.inr (.inr (.inr rfl)))

/-- A line that has no marker and is not ignored is read by its words. -/
theorem ofWords_of_classify {text : String} {skipping : Bool} {directive : Directive}
    (h : classify text skipping = .ok directive) (hend : directive ≠ .endSkip)
    (hignored : directive ≠ .ignored) (hstart : directive ≠ .startSkip) :
    ofWords text.toList = .ok directive := by
  rw [classify, classifyChars] at h
  split at h
  · exact absurd (Except.ok.inj h).symm hend
  · split at h
    · exact absurd (Except.ok.inj h).symm hignored
    · split at h
      · exact absurd (Except.ok.inj h).symm hstart
      · exact h

end Directive

/-- A command that begins or ends no block, and is not passed over either, is that of a directive
which is read by the words of its line. -/
theorem Core.ofWords_of_step {core : Core} {line : String} {command : Command}
    (h : (core.step line).1 = command) (hskip : ∀ on, command ≠ .skipMode on)
    (hnothing : command ≠ .nothing) (hmalformed : ∀ reason, command ≠ .malformed reason) :
    ∃ directive, Directive.ofWords line.toList = .ok directive ∧
      (core.perform directive).1 = command := by
  rw [step] at h
  cases hread : Directive.classify line core.skipping with
  | error reason =>
    rw [hread] at h
    exact absurd h.symm (hmalformed reason)
  | ok directive =>
    rw [hread] at h
    refine ⟨directive, Directive.ofWords_of_classify hread ?_ ?_ ?_, h⟩
    · rintro rfl
      exact hskip false h.symm
    · rintro rfl
      exact hnothing h.symm
    · rintro rfl
      exact hskip true h.symm

/-- Whether a variable is one that a line can set: its name is a word, and its value begins
with one. -/
structure IsSettable (key value : String) : Prop where
  /-- The name is not empty. -/
  key_ne : key ≠ ""
  /-- The name has no blank. -/
  key_word : ∀ c ∈ key.toList, isBlank c = false
  /-- The value is not empty. -/
  value_ne : value ≠ ""
  /-- The value begins with no blank. -/
  value_head : ∀ c ∈ value.toList.head?, isBlank c = false

/-- Every variable that a line sets is one that a line can set, whatever the line begins with. -/
theorem Directive.settable_of_classify {text : String} {skipping : Bool} {key value : String}
    (h : classify text skipping = .ok (.env key value)) : IsSettable key value := by
  have hparsed : ∃ arguments, (∀ c ∈ arguments.head?, isBlank c = false) ∧
      parseEnv arguments = .ok (.env key value) := by
    rcases ofWords_ok (ofWords_of_classify h nofun nofun nofun) with
      ⟨_, _, arguments, hsame, hhead, hparse⟩ | h | h | ⟨_, h, _⟩ | h
    · cases hsame
      exact ⟨arguments, hhead, hparse⟩
    all_goals cases h
  obtain ⟨arguments, harguments, hparse⟩ := hparsed
  obtain ⟨name, gap, rest, rfl, hword, hgap, hgapne, hvalue, hvaluene, hsame⟩ := parseEnv_eq hparse
  cases hsame
  refine ⟨?_, ?_, ?_, ?_⟩
  · intro hempty
    have hname : name = [] := by rwa [← String.toList_eq_nil_iff, String.toList_ofList] at hempty
    subst hname
    cases gap with
    | nil => exact hgapne rfl
    | cons blank gap =>
      have hblank : isBlank blank = false := harguments blank rfl
      rw [hgap blank List.mem_cons_self] at hblank
      cases hblank
  · rwa [String.toList_ofList]
  · rwa [Ne, ← String.toList_eq_nil_iff, String.toList_ofList]
  · rwa [String.toList_ofList]

/-- A step keeps only variables that a line can set. -/
theorem Core.settable_step {core : Core} (text : String)
    (h : ∀ entry ∈ core.env.entries, IsSettable entry.1 entry.2) :
    ∀ entry ∈ (core.step text).2.env.entries, IsSettable entry.1 entry.2 := by
  rw [step]
  cases hread : Directive.classify text core.skipping with
  | error reason => exact h
  | ok directive =>
    cases directive with
    | env key value =>
      intro entry hentry
      rcases Environment.mem_insertEntry hentry with rfl | hold
      · exact Directive.settable_of_classify hread
      · exact h entry hold
    | envClear => exact List.forall_mem_nil _
    | _ => exact h

/-- Lines in turn keep only variables that a line can set. -/
theorem Core.settable_after {core : Core} (lines : List String)
    (h : ∀ entry ∈ core.env.entries, IsSettable entry.1 entry.2) :
    ∀ entry ∈ (core.after lines).env.entries, IsSettable entry.1 entry.2 := by
  induction lines generalizing core with
  | nil => exact h
  | cons text rest ih => exact ih (settable_step text h)

/-- A line with a marker before everything else, an empty line, a comment and a marker after
these are told by how they begin, whatever else stands in them. -/
theorem Directive.classifyChars_marked (line : List Char) :
    (endSkipMarker.toList <+: line → classifyChars line false = .ok .endSkip) ∧
      (¬ endSkipMarker.toList <+: line → line = [] ∨ line.head? = some '#' →
        classifyChars line false = .ok .ignored) ∧
      (¬ endSkipMarker.toList <+: line → line ≠ [] → line.head? ≠ some '#' →
        startSkipMarker.toList <+: line → classifyChars line false = .ok .startSkip) := by
  rw [← beginsWith_iff, ← beginsWith_iff]
  refine ⟨fun hend => ?_, fun hend hseen => ?_, fun hend hne hcomment hstart => ?_⟩
  · rw [classifyChars, if_pos hend]
  · have hnothing : (false || line.isEmpty || line.head? == some '#') = true := by
      simpa using hseen
    rw [classifyChars, if_neg hend, if_pos hnothing]
  · have hsomething : (false || line.isEmpty || line.head? == some '#') ≠ true := by
      simp [hne, hcomment]
    rw [classifyChars, if_neg hend, if_neg hsomething, if_pos hstart]

/-- A line that is empty or begins with no blank is the end of a skipped block, ignored or the
begin of a skipped block, in this order, by how it begins, or else asks for what the grammar
says of its words; and whatever lines a script has, every variable that is ever set is one that
a line can set. -/
theorem Directive.classify_follows_grammar {text : String}
    (h : ∀ c ∈ text.toList.head?, isBlank c = false) :
    (endSkipMarker.toList <+: text.toList → classify text false = .ok .endSkip) ∧
      (¬ endSkipMarker.toList <+: text.toList →
        (text.toList = [] ∨ text.toList.head? = some '#' → classify text false = .ok .ignored) ∧
        (text.toList ≠ [] → text.toList.head? ≠ some '#' →
          (startSkipMarker.toList <+: text.toList → classify text false = .ok .startSkip) ∧
          (¬ startSkipMarker.toList <+: text.toList →
            Grammar text.toList (classify text false)))) ∧
      ∀ lines : List String, ∀ entry ∈ (Core.after {} lines).env.entries,
        IsSettable entry.1 entry.2 := by
  obtain ⟨hendSkip, hignored, hstartSkip⟩ := classifyChars_marked text.toList
  refine ⟨hendSkip, fun hend => ⟨hignored hend, fun hne hcomment => ?_⟩, ?_⟩
  · refine ⟨hstartSkip hend hne hcomment, fun hstart => ?_⟩
    rw [classify, classifyChars_of_words hend hstart hne hcomment]
    exact (ofWords_told h hne).grammar
  · exact fun lines => Core.settable_after lines (List.forall_mem_nil _)

/-- A value keeps the blanks behind its first word, and the blanks before it may be any. -/
theorem Directive.classify_follows_grammar_wide_blank :
    (∀ c ∈ "ENV K\u3000a  b ".toList.head?, isBlank c = false) ∧
      classify "ENV K\u3000a  b " false = .ok (.env "K" "a  b ") := by
  have hhead : ∀ c ∈ "ENV K\u3000a  b ".toList.head?, isBlank c = false :=
    end_of_all (by decide +kernel)
  obtain ⟨-, hrest, -⟩ := classify_follows_grammar hhead
  obtain ⟨-, hrest⟩ := hrest (by decide +kernel)
  obtain ⟨-, hgrammar⟩ := hrest (by decide +kernel) (by decide +kernel)
  exact ⟨hhead, ((hgrammar (by decide +kernel)).env "K" "a  b ").mpr
    ⟨"a".toList, ["b".toList], by decide +kernel, by decide +kernel⟩⟩

end LineScript
