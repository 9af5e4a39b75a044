import LineScript.Proofs.Reading
import LineScript.Proofs.Utf8
import LineScript.Proofs.Words

/-!
# Directives that are written and read again

A directive is written as one line, with any blanks around it and either terminator behind
it, and the lines are put together to the bytes of a script. Reading cuts the bytes,
decodes, trims and fills in the directory, and classifying reads the words of a line; each
of these undoes its part of the writing. Main result: a script of written directives reads
as exactly these directives, one for each line; and a directive that was read off any line
is read again off the line that writes it.
-/

namespace LineScript

open Text

/-- Whether a text can stand in a line of a script as it is. -/
structure Script.Writable (text : String) : Prop where
  /-- There is something to read. -/
  nonempty : text ≠ ""
  /-- It is one line. -/
  unbroken : '\n' ∉ text.toList
  /-- It has no blank at its ends. -/
  bare : IsBare text.toList
  /-- Nothing is filled in. -/
  plain : ¬ Script.placeholder.toList <:+: text.toList

/-- A word without placeholders can stand in a line. -/
theorem Script.Writable.of_word {word : String} (hne : word ≠ "")
    (hword : ∀ c ∈ word.toList, isBlank c = false)
    (hplain : ¬ Script.placeholder.toList <:+: word.toList) : Script.Writable word where
  nonempty := hne
  unbroken hmem := absurd (hword '\n' hmem) (by decide)
  bare :=
    ⟨fun c hc => hword c (List.mem_of_head? hc), fun c hc => hword c (List.mem_of_getLast? hc)⟩
  plain := hplain

/-- A keyword can stand in a line. -/
theorem Script.Writable.of_keyword {keyword : String} (hne : keyword ≠ "")
    (hword : (keyword.toList.all fun c => !isBlank c) = true) (hdollar : '$' ∉ keyword.toList) :
    Script.Writable keyword :=
  .of_word hne (word_of_all hword) (Script.plain_of_not_mem hdollar)

namespace Directive

/-- The keywords that are recognised as the first word of a line. -/
def keywords : List String := ["ENV", "ENVCLEAR", "RESTART", "DELAY"]

/-- The first word of a text that begins with one. -/
def firstWord (text : List Char) : List Char := text.takeWhile fun c => !isBlank c

/-- The directives that can be written as a line. -/
inductive Writable : Directive → Prop
  /-- A variable, whose name is a word. -/
  | env {key value} (hkey : key ≠ "") (hword : ∀ c ∈ key.toList, isBlank c = false)
      (hplain : ¬ Script.placeholder.toList <:+: key.toList) (hvalue : Script.Writable value) :
      Writable (.env key value)
  /-- Forgetting all variables. -/
  | envClear : Writable .envClear
  /-- A restart. -/
  | restart : Writable .restart
  /-- The begin of a skipped block. -/
  | startSkip : Writable .startSkip
  /-- The end of a skipped block. -/
  | endSkip : Writable .endSkip
  /-- A text that is neither a comment nor a marker and begins with no keyword. -/
  | send {text} (htext : Script.Writable text) (hcomment : text.toList.head? ≠ some '#')
      (hstart : ¬ startSkipMarker.toList <+: text.toList)
      (hend : ¬ endSkipMarker.toList <+: text.toList)
      (hkeyword : ∀ keyword ∈ keywords, firstWord text.toList ≠ keyword.toList) :
      Writable (.send text)

/-- The texts that say the same as the line that writes a directive: more blanks may stand
behind the words of a keyword, and anything behind a marker. -/
inductive SaidBy : Directive → List Char → Prop
  /-- A variable. -/
  | env {key value gap gap'} (hgap : ∀ c ∈ gap, isBlank c = true) (hne : gap ≠ [])
      (hgap' : ∀ c ∈ gap', isBlank c = true) (hne' : gap' ≠ []) :
      SaidBy (.env key value) ("ENV".toList ++ (gap ++ (key.toList ++ (gap' ++ value.toList))))
  /-- Forgetting all variables. -/
  | envClear {gap} (hgap : ∀ c ∈ gap, isBlank c = true) :
      SaidBy .envClear ("ENVCLEAR".toList ++ gap)
  /-- A restart. -/
  | restart {gap} (hgap : ∀ c ∈ gap, isBlank c = true) : SaidBy .restart ("RESTART".toList ++ gap)
  /-- The begin of a skipped block. -/
  | startSkip {rest} : SaidBy .startSkip (startSkipMarker.toList ++ rest)
  /-- The end of a skipped block. -/
  | endSkip {rest} : SaidBy .endSkip (endSkipMarker.toList ++ rest)
  /-- A text. -/
  | send {text} : SaidBy (.send text) text.toList

/-- A line that begins with neither marker is read by its words. -/
theorem classifyChars_of_words {line : List Char} (hend : ¬ endSkipMarker.toList <+: line)
    (hstart : ¬ startSkipMarker.toList <+: line) (hne : line ≠ [])
    (hcomment : line.head? ≠ some '#') :
    classifyChars line false = ofWords line := by
  have hendMarker : beginsWith endSkipMarker line = false := by
    rw [beginsWith, ← Bool.not_eq_true, List.isPrefixOf_iff_prefix]
    exact hend
  have hstartMarker : beginsWith startSkipMarker line = false := by
    rw [beginsWith, ← Bool.not_eq_true, List.isPrefixOf_iff_prefix]
    exact hstart
  have hseen : (false || line.isEmpty || line.head? == some '#') = false := by
    rw [Bool.or_eq_false_iff, Bool.or_eq_false_iff, List.isEmpty_eq_false_iff, beq_eq_false_iff_ne]
    exact ⟨⟨rfl, hne⟩, hcomment⟩
  rw [classifyChars, hendMarker, hseen, hstartMarker]
  rfl

/-- A line that sets a variable is read as such: the name up to the next blank, and the
value from the next word on. -/
theorem classifyChars_env {gap gap' : List Char} {key value : List Char}
    (hgap : ∀ c ∈ gap, isBlank c = true) (hne : gap ≠ [])
    (hkey : ∀ c ∈ key, isBlank c = false) (hkeyne : key ≠ [])
    (hgap' : ∀ c ∈ gap', isBlank c = true) (hne' : gap' ≠ [])
    (hvalue : ∀ c ∈ value.head?, isBlank c = false) (hvaluene : value ≠ []) :
    classifyChars ("ENV".toList ++ (gap ++ (key ++ (gap' ++ value)))) false =
      .ok (.env (String.ofList key) (String.ofList value)) := by
  have hhead : ∀ c ∈ (key ++ (gap' ++ value)).head?, isBlank c = false := by
    cases key with
    | nil => exact absurd rfl hkeyne
    | cons c key =>
      rintro _ ⟨⟩
      exact hkey c List.mem_cons_self
  have hwords : splitKeyword ("ENV".toList ++ (gap ++ (key ++ (gap' ++ value)))) =
      ("ENV".toList, key ++ (gap' ++ value)) := by
    have hword : ∀ c ∈ "ENV".toList, isBlank c = false := word_of_all (by decide)
    rw [splitKeyword_append hword hgap hne, trimStart_of_head hhead]
  have hparse : parseEnv (key ++ (gap' ++ value)) =
      .ok (.env (String.ofList key) (String.ofList value)) := by
    cases gap' with
    | nil => exact absurd rfl hne'
    | cons blank gap' =>
      obtain ⟨hblank, hblanks⟩ := List.forall_mem_cons.mp hgap'
      rw [parseEnv, List.cons_append, splitAtBlank?_append hkey hblank]
      simp only [trimStart_append hblanks, trimStart_of_head hvalue]
  rw [classifyChars_of_words, ofWords, hwords]
  · simp only [if_true, hparse]
  · exact fun hbegins => by
      have hthird := (List.cons_prefix_cons.mp (List.cons_prefix_cons.mp hbegins).2).2
      exact absurd (List.cons_prefix_cons.mp hthird).1 (by decide)
  · exact fun hbegins => absurd (List.cons_prefix_cons.mp hbegins).1 (by decide)
  · exact List.cons_ne_nil _ _
  · exact fun hhash => absurd (Option.some.inj hhash) (by decide)

/-- The line that sets a variable. -/
theorem toList_line_env (key value : String) :
    (line (.env key value)).toList =
      "ENV".toList ++ ([' '] ++ (key.toList ++ ([' '] ++ value.toList))) := by
  simp only [line, String.toList_append]
  simp

/-- The line of a writable directive can stand in a script. -/
theorem Writable.line_writable {directive : Directive} (h : directive.Writable) :
    Script.Writable directive.line := by
  cases h with
  | envClear =>
    have hword : Script.Writable "ENVCLEAR" := .of_keyword (by decide) (by decide) (by decide)
    exact hword
  | restart =>
    have hword : Script.Writable "RESTART" := .of_keyword (by decide) (by decide) (by decide)
    exact hword
  | startSkip =>
    have hword : Script.Writable "START_SKIP" := .of_keyword (by decide) (by decide) (by decide)
    exact hword
  | endSkip =>
    have hword : Script.Writable "END_SKIP" := .of_keyword (by decide) (by decide) (by decide)
    exact hword
  | send htext => exact htext
  | @env key value hkey hword hplain hvalue =>
    have hname : Script.Writable key := .of_word hkey hword hplain
    have hkeyword : Script.Writable "ENV" := .of_keyword (by decide) (by decide) (by decide)
    have hline := toList_line_env key value
    simp only [List.singleton_append] at hline
    have hvaluene : value.toList ≠ [] := fun hnil =>
      hvalue.nonempty (String.toList_eq_nil_iff.mp hnil)
    refine ⟨?_, ?_, ⟨?_, ?_⟩, ?_⟩
    · intro hempty
      rw [hempty] at hline
      exact absurd (List.append_eq_nil_iff.mp hline.symm).1 (by decide)
    · rw [hline, List.mem_append, List.mem_cons, List.mem_append, List.mem_cons]
      rintro (hmem | hmem | hmem | hmem | hmem)
      · exact hkeyword.unbroken hmem
      · exact absurd hmem (by decide)
      · exact hname.unbroken hmem
      · exact absurd hmem (by decide)
      · exact hvalue.unbroken hmem
    · rw [hline]
      rintro _ ⟨⟩
      decide
    · have hfront : (line (.env key value)).toList =
          ("ENV " ++ key ++ " ").toList ++ value.toList := String.toList_append
      rw [hfront, List.getLast?_append, Option.or_of_isSome (List.getLast?_isSome.mpr hvaluene)]
      exact hvalue.bare.last
    · rw [hline]
      have hblank : isBlank ' ' = true := by decide
      exact Script.plain_append_blank hblank hkeyword.plain
        (Script.plain_append_blank hblank hplain hvalue.plain)

/-- The line of a writable directive asks for that directive. -/
theorem Writable.classify_line {directive : Directive} (h : directive.Writable) :
    classify directive.line false = .ok directive := by
  cases h with
  | envClear => rfl
  | restart => rfl
  | startSkip => rfl
  | endSkip => rfl
  | @env key value hkey hword _ hvalue =>
    have hspace : ∀ c ∈ [' '], isBlank c = true := List.forall_mem_singleton.mpr rfl
    have hkeyne : key.toList ≠ [] := fun hnil => hkey (String.toList_eq_nil_iff.mp hnil)
    have hvaluene : value.toList ≠ [] := fun hnil =>
      hvalue.nonempty (String.toList_eq_nil_iff.mp hnil)
    rw [classify, toList_line_env, classifyChars_env hspace (by decide) hword hkeyne hspace
      (by decide) hvalue.bare.head hvaluene, String.ofList_toList, String.ofList_toList]
  | @send text htext hcomment hstart hend hkeyword =>
    have hne : text.toList ≠ [] := fun hnil => htext.nonempty (String.toList_eq_nil_iff.mp hnil)
    have hfirst (keyword : String) (hmem : keyword ∈ keywords) :
        (splitKeyword text.toList).1 ≠ keyword.toList := by
      rw [splitKeyword_fst]
      exact hkeyword keyword hmem
    have henv := hfirst "ENV" (by decide)
    have hclear := hfirst "ENVCLEAR" (by decide)
    have hrestart := hfirst "RESTART" (by decide)
    have hdelay := hfirst "DELAY" (by decide)
    have hwords : ofWords text.toList = .ok (.send text) := by
      simp only [ofWords, if_neg henv, if_neg hclear, if_neg hrestart, if_neg hdelay,
        String.ofList_toList]
    rw [line, classify, classifyChars_of_words hend hstart hne hcomment, hwords]

/-- A keyword without arguments says what its line says. -/
theorem withoutArguments_eq {keyword : String} {directive directive' : Directive}
    {arguments : List Char} (h : withoutArguments keyword directive arguments = .ok directive') :
    arguments = [] ∧ directive' = directive := by
  cases arguments with
  | nil =>
    cases h
    exact ⟨rfl, rfl⟩
  | cons c rest => cases h

/-- A directive that was read off the words of a line, and is no wait, is said by the line,
and read again off the line that writes it. -/
theorem ofWords_said {text : List Char} {directive : Directive}
    (hread : classifyChars text false = .ok directive) (h : ofWords text = .ok directive)
    (hwait : ∀ duration, directive ≠ .delay duration) :
    SaidBy directive text ∧ classify directive.line false = .ok directive := by
  rcases hsplit : splitKeyword text with ⟨keyword, arguments⟩
  obtain ⟨gap, rfl, hgap, hgapne, hhead⟩ := splitKeyword_eq hsplit
  rw [ofWords, hsplit] at h
  dsimp only at h
  split at h
  · rename_i hkeyword
    subst hkeyword
    obtain ⟨key, gap', value, rfl, hkey, hgap', hne', hvalue, hvaluene, rfl⟩ := parseEnv_eq h
    have hkeyne : key ≠ [] := by
      rintro rfl
      cases gap' with
      | nil => exact hne' rfl
      | cons blank gap' =>
        have hblank : isBlank blank = false := hhead blank rfl
        rw [hgap' blank List.mem_cons_self] at hblank
        cases hblank
    have hne : gap ≠ [] := hgapne (List.append_ne_nil_of_left_ne_nil hkeyne _)
    have hspace : ∀ c ∈ [' '], isBlank c = true := List.forall_mem_singleton.mpr rfl
    have hkeylist : (String.ofList key).toList = key := String.toList_ofList
    have hvaluelist : (String.ofList value).toList = value := String.toList_ofList
    refine ⟨?_, ?_⟩
    · have hsaid : SaidBy (.env (String.ofList key) (String.ofList value)) _ :=
        .env hgap hne hgap' hne'
      rwa [hkeylist, hvaluelist] at hsaid
    · rw [classify, toList_line_env, hkeylist, hvaluelist]
      exact classifyChars_env hspace (by decide) hkey hkeyne hspace (by decide) hvalue hvaluene
  · split at h
    · rename_i hkeyword
      subst hkeyword
      obtain ⟨rfl, rfl⟩ := withoutArguments_eq h
      rw [List.append_nil]
      exact ⟨.envClear hgap, rfl⟩
    · split at h
      · rename_i hkeyword
        subst hkeyword
        obtain ⟨rfl, rfl⟩ := withoutArguments_eq h
        rw [List.append_nil]
        exact ⟨.restart hgap, rfl⟩
      · split at h
        · cases hparse : parseDelay arguments with
          | error reason =>
            rw [hparse] at h
            cases h
          | ok duration =>
            rw [hparse] at h
            cases h
            exact absurd rfl (hwait duration)
        · cases h
          refine ⟨?_, ?_⟩
          · have hsaid : SaidBy (.send (String.ofList (keyword ++ (gap ++ arguments)))) _ := .send
            rwa [String.toList_ofList] at hsaid
          · rw [line, classify, String.toList_ofList]
            exact hread

/-- A directive that was read off a line, and is neither nothing nor a wait, is said by the
line, and read again off the line that writes it. -/
theorem classify_line_of_classify {text : String} {directive : Directive}
    (h : classify text false = .ok directive) (hseen : directive ≠ .ignored)
    (hwait : ∀ duration, directive ≠ .delay duration) :
    SaidBy directive text.toList ∧ classify directive.line false = .ok directive := by
  rw [classify] at h
  have hread := h
  rw [classifyChars] at h
  split at h
  · rename_i hmarker
    cases h
    obtain ⟨rest, hrest⟩ := List.isPrefixOf_iff_prefix.mp hmarker
    rw [← hrest]
    exact ⟨.endSkip, rfl⟩
  · split at h
    · cases h
      exact absurd rfl hseen
    · split at h
      · rename_i hmarker
        cases h
        obtain ⟨rest, hrest⟩ := List.isPrefixOf_iff_prefix.mp hmarker
        rw [← hrest]
        exact ⟨.startSkip, rfl⟩
      · exact ofWords_said hread h hwait

end Directive

/-- How a line of a script ends. -/
inductive LineEnding where
  /-- With a newline. -/
  | newline
  /-- With a carriage return and a newline. -/
  | returnNewline
  /-- With the end of the script. -/
  | endOfText
  deriving DecidableEq

/-- The characters that end a line. -/
def LineEnding.chars : LineEnding → List Char
  | .newline => ['\n']
  | .returnNewline => ['\r', '\n']
  | .endOfText => []

/-- A directive that is written as a line of a script, with blanks around it. -/
structure WrittenLine where
  /-- The directive. -/
  directive : Directive
  /-- The blanks before it. -/
  before : List Char
  /-- The blanks after it. -/
  after : List Char
  /-- How the line ends. -/
  ending : LineEnding
  /-- The directive can be written. -/
  writable : directive.Writable
  /-- What stands before it are blanks of the same line. -/
  before_blank : ∀ c ∈ before, isBlank c = true ∧ c ≠ '\n'
  /-- What stands after it are blanks of the same line. -/
  after_blank : ∀ c ∈ after, isBlank c = true ∧ c ≠ '\n'

namespace WrittenLine

/-- The characters of a line but for its ending. -/
def body (written : WrittenLine) : List Char :=
  written.before ++ written.directive.line.toList ++ written.after

/-- The characters of a line. -/
def chars (written : WrittenLine) : List Char := written.body ++ written.ending.chars

/-- The bytes of a line. -/
def bytes (written : WrittenLine) : Bytes := Utf8.encode written.chars

/-- Trimming leaves the line of the directive. -/
theorem trim_body (written : WrittenLine) : trim written.body = written.directive.line.toList :=
  trim_padded written.writable.line_writable.bare (fun c hc => (written.before_blank c hc).1)
    fun c hc => (written.after_blank c hc).1

/-- No newline stands before the ending. -/
theorem newline_not_mem_body (written : WrittenLine) : '\n' ∉ written.body := by
  rw [body, List.mem_append, List.mem_append]
  rintro ((hmem | hmem) | hmem)
  · exact (written.before_blank _ hmem).2 rfl
  · exact written.writable.line_writable.unbroken hmem
  · exact (written.after_blank _ hmem).2 rfl

/-- A line is not empty before its ending. -/
theorem body_ne_nil (written : WrittenLine) : written.body ≠ [] := by
  intro hnil
  rw [body, List.append_eq_nil_iff, List.append_eq_nil_iff, String.toList_eq_nil_iff] at hnil
  exact written.writable.line_writable.nonempty hnil.1.2

/-- The bytes of a line that ends with a newline. -/
theorem bytes_newline {written : WrittenLine} (h : written.ending = .newline) :
    written.bytes = Utf8.encode written.body ++ [newline] := by
  rw [bytes, chars, h, Utf8.encode_append]
  rfl

/-- The bytes of a line that ends with a carriage return and a newline. -/
theorem bytes_returnNewline {written : WrittenLine} (h : written.ending = .returnNewline) :
    written.bytes = Utf8.encode (written.body ++ ['\r']) ++ [newline] := by
  have hnewline : Utf8.encode ['\n'] = [newline] := by decide
  rw [bytes, chars, h, ← hnewline, ← Utf8.encode_append, List.append_assoc]
  rfl

/-- The bytes of a line that ends with the script. -/
theorem bytes_endOfText {written : WrittenLine} (h : written.ending = .endOfText) :
    written.bytes = Utf8.encode written.body := by
  rw [bytes, chars, h]
  exact congrArg Utf8.encode (List.append_nil _)

/-- A line that does not end with the script is complete. -/
theorem isTerminated_bytes {written : WrittenLine} (h : written.ending ≠ .endOfText) :
    IsTerminated written.bytes := by
  cases hending : written.ending with
  | endOfText => exact absurd hending h
  | newline =>
    exact ⟨_, Utf8.newline_not_mem_encode written.newline_not_mem_body, bytes_newline hending⟩
  | returnNewline =>
    have hreturn : '\n' ∉ written.body ++ ['\r'] := by
      rw [List.mem_append]
      rintro (hmem | hmem)
      · exact written.newline_not_mem_body hmem
      · exact absurd hmem (by decide)
    exact ⟨_, Utf8.newline_not_mem_encode hreturn, bytes_returnNewline hending⟩

/-- What a line is without its terminator is trimmed to the line of its directive. -/
theorem dropTerminator_bytes (written : WrittenLine) :
    ∃ kept, dropTerminator written.bytes = Utf8.encode kept ∧
      trim kept = written.directive.line.toList := by
  have hreturn : ∀ c ∈ ['\r'], isBlank c = true := List.forall_mem_singleton.mpr rfl
  have htrim {text kept : List Char} (h : text = kept ∨ text = kept ++ ['\r']) :
      trim kept = trim text := by
    rcases h with rfl | rfl
    · rfl
    · exact (trim_append hreturn kept).symm
  cases hending : written.ending with
  | newline =>
    obtain ⟨kept, hdrop, hkept⟩ := dropTerminator_encode written.body
    rw [bytes_newline hending]
    exact ⟨kept, hdrop, (htrim hkept).trans written.trim_body⟩
  | returnNewline =>
    obtain ⟨kept, hdrop, hkept⟩ := dropTerminator_encode (written.body ++ ['\r'])
    rw [bytes_returnNewline hending]
    refine ⟨kept, hdrop, (htrim hkept).trans ?_⟩
    rw [trim_append hreturn, written.trim_body]
  | endOfText =>
    refine ⟨written.body, ?_, written.trim_body⟩
    rw [bytes_endOfText hending,
      dropTerminator_of_not_mem (Utf8.newline_not_mem_encode written.newline_not_mem_body)]

/-- Written lines are delivered one by one, if none but the last ends with the script. -/
theorem deliveredLines_bytes {writtens : List WrittenLine}
    (h : ∀ written ∈ writtens.dropLast, written.ending ≠ .endOfText) :
    deliveredLines (writtens.flatMap bytes) none = writtens.map bytes := by
  induction writtens with
  | nil => rfl
  | cons written rest ih =>
    rw [List.flatMap_cons, List.map_cons]
    by_cases hending : written.ending = .endOfText
    · -- Only the last line may end with the script.
      cases rest with
      | cons next rest => exact absurd hending (h written List.mem_cons_self)
      | nil =>
        have hne : Utf8.encode written.body ≠ [] := by
          intro hnil
          have hdecoded := Utf8.pieces_encode written.body
          rw [hnil] at hdecoded
          exact written.body_ne_nil (List.map_eq_nil_iff.mp hdecoded.symm)
        rw [List.flatMap_nil, List.append_nil, bytes_endOfText hending]
        exact deliveredLines_unfinished
          (Utf8.newline_not_mem_encode written.newline_not_mem_body) hne
    · have hrest : ∀ later ∈ rest.dropLast, later.ending ≠ .endOfText := by
        intro later hlater
        cases rest with
        | nil => cases hlater
        | cons next rest => exact h later (List.mem_cons_of_mem written hlater)
      rw [deliveredLines_append (isTerminated_bytes hending), ih hrest]

/-- Written lines are made ready as the lines of their directives. -/
theorem prepareLines_bytes (baseDir : String) (number : Nat) (writtens : List WrittenLine) :
    (Script.prepareLines baseDir none number
        (writtens.map fun written => dropTerminator written.bytes)).2 = none ∧
      (Script.prepareLines baseDir none number
        (writtens.map fun written => dropTerminator written.bytes)).1.map Line.text =
        writtens.map fun written => written.directive.line := by
  induction writtens generalizing number with
  | nil => exact ⟨rfl, rfl⟩
  | cons written rest ih =>
    obtain ⟨kept, hdrop, htrim⟩ := written.dropTerminator_bytes
    have hdecode : Utf8.decodeString (dropTerminator written.bytes) = .ok (String.ofList kept) := by
      rw [hdrop, Utf8.decodeString_encode]
    have hready : Script.prepareLine (String.ofList kept) baseDir = written.directive.line := by
      rw [Script.prepareLine_of_plain htrim written.writable.line_writable.plain,
        String.ofList_toList]
    obtain ⟨hfailure, htexts⟩ := ih (number + 1)
    rw [List.map_cons, Script.prepareLines_cons _ hdecode, List.map_cons, List.map_cons, htexts,
      hready]
    exact ⟨hfailure, rfl⟩

end WrittenLine

/-- Whatever the base directory is and in whatever pieces the bytes arrive, a script of
written directives is read without a failure, as one line for each of them, numbered from 1
on, and each line asks for exactly its directive. Conversely a directive that was read off
any text, and is neither nothing nor a wait, is said by the text, and is read again off the
line that writes it. -/
theorem Script.read_written (writtens : List WrittenLine)
    (hends : ∀ written ∈ writtens.dropLast, written.ending ≠ .endOfText) (chunks : List Bytes)
    (hchunks : chunks.flatten = Utf8.encode (writtens.flatMap WrittenLine.chars))
    (baseDir : String) :
    (Script.read baseDir ⟨chunks, none⟩).failure = none ∧
      (Script.read baseDir ⟨chunks, none⟩).lines.map Line.number =
        List.range' 1 writtens.length ∧
      (Script.read baseDir ⟨chunks, none⟩).lines.map
          (fun line => Directive.classify line.text false) =
        writtens.map (fun written => .ok written.directive) ∧
      ∀ text directive, Directive.classify text false = .ok directive → directive ≠ .ignored →
        (∀ duration, directive ≠ .delay duration) →
        directive.SaidBy text.toList ∧
          Directive.classify directive.line false = .ok directive := by
  have hbytes : Source.bytes ⟨chunks, none⟩ = writtens.flatMap WrittenLine.bytes := by
    rw [Source.bytes, hchunks, Utf8.encode, List.flatMap_assoc]
    rfl
  obtain ⟨hfailure, htexts⟩ := WrittenLine.prepareLines_bytes baseDir 1 writtens
  have hread : Script.read baseDir ⟨chunks, none⟩ =
      ⟨baseDir, (Script.prepareLines baseDir none 1
        (writtens.map fun written => dropTerminator written.bytes)).1, none⟩ := by
    rw [Script.read_eq, hbytes, WrittenLine.deliveredLines_bytes hends, List.map_map]
    exact congrArg _ hfailure
  have hlength := congrArg List.length htexts
  rw [List.length_map, List.length_map] at hlength
  refine ⟨?_, ?_, ?_, fun text directive => Directive.classify_line_of_classify⟩
  · rw [hread]
  · rw [Script.read_numbers, hread, hlength]
  · have hclassify : (Script.read baseDir ⟨chunks, none⟩).lines.map
        (fun line => Directive.classify line.text false) =
        ((Script.read baseDir ⟨chunks, none⟩).lines.map Line.text).map
          (Directive.classify · false) := by
      rw [List.map_map]
      rfl
    rw [hclassify, hread, htexts, List.map_map]
    exact List.map_congr_left fun written _ => written.writable.classify_line

/-- A text that begins and ends with a character that is checked to be no blank can be
written, if it has neither a newline nor a dollar sign. -/
theorem Script.Writable.of_ends {text : String} (hne : text ≠ "")
    (hhead : (text.toList.head?.all fun c => !isBlank c) = true)
    (hlast : (text.toList.getLast?.all fun c => !isBlank c) = true)
    (hunbroken : '\n' ∉ text.toList) (hdollar : '$' ∉ text.toList) : Script.Writable text :=
  ⟨hne, hunbroken, ⟨end_of_all hhead, end_of_all hlast⟩, Script.plain_of_not_mem hdollar⟩

/-- Blanks of one line, checked one by one. -/
theorem WrittenLine.blanks_of_all {blanks : List Char}
    (h : (blanks.all fun c => isBlank c && c != '\n') = true) :
    ∀ c ∈ blanks, isBlank c = true ∧ c ≠ '\n' := by
  intro c hc
  have hboth := List.all_eq_true.mp h c hc
  rwa [Bool.and_eq_true, bne_iff_ne] at hboth

/-- Three directives with blanks of several kinds and every ending; the first word of the
text only begins like a keyword. -/
def WrittenLine.sample : List WrittenLine :=
  [{ directive := .env "K" "a  b"
     before := [' ', '\u3000']
     after := ['\t']
     ending := .returnNewline
     writable := .env (by decide) (word_of_all (by decide)) (Script.plain_of_not_mem (by decide))
       (.of_ends (by decide) (by decide) (by decide) (by decide) (by decide))
     before_blank := blanks_of_all (by decide)
     after_blank := blanks_of_all (by decide) },
   { directive := .send "RESTARTED now"
     before := []
     after := []
     ending := .newline
     writable := .send (.of_ends (by decide) (by decide) (by decide) (by decide) (by decide))
       (by decide) (by decide) (by decide) (by decide)
     before_blank := List.forall_mem_nil _
     after_blank := List.forall_mem_nil _ },
   { directive := .endSkip
     before := ['\t']
     after := []
     ending := .endOfText
     writable := .endSkip
     before_blank := blanks_of_all (by decide)
     after_blank := List.forall_mem_nil _ }]

/-- These directives are read again, also if a carriage return is cut off from its newline. -/
theorem Script.read_written_sample :
    (Script.read "/d" ⟨[Utf8.ofString " \u3000ENV K a  b\t\r",
        Utf8.ofString "\nRESTARTED now\n\tEND_SKIP"], none⟩).lines.map
          (fun line => Directive.classify line.text false) =
      [.ok (.env "K" "a  b"), .ok (.send "RESTARTED now"), .ok .endSkip] := by
  have hends : ∀ written ∈ WrittenLine.sample.dropLast, written.ending ≠ .endOfText := by
    intro written hmem
    simp only [WrittenLine.sample, List.dropLast, List.mem_cons, List.not_mem_nil, or_false] at hmem
    rcases hmem with rfl | rfl <;> exact nofun
  have hchunks : [Utf8.ofString " \u3000ENV K a  b\t\r",
      Utf8.ofString "\nRESTARTED now\n\tEND_SKIP"].flatten =
        Utf8.encode (WrittenLine.sample.flatMap WrittenLine.chars) := by
    decide +kernel
  obtain ⟨_, _, hlines, _⟩ := Script.read_written WrittenLine.sample hends _ hchunks "/d"
  exact hlines

end LineScript
