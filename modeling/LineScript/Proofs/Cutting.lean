import LineScript.Proofs.Decoding
import LineScript.Proofs.Reading

/-!
# Lines by position

A reader takes one line after the other out of a buffer that is filled in pieces. The lines can
also be had from the whole at once: it is cut at every newline, an empty last piece is dropped,
and each piece that a newline ended loses one carriage return at its end. Main result: whatever
the pieces and the buffer are, a script consists of the longest run of these lines that are
UTF-8, and reading them as text gives all of them, up to the end.
-/

namespace LineScript

section Positions

variable {α : Type} [DecidableEq α] (stop mark : α)

/-- A piece without one `mark` at its end. -/
def dropFinal (piece : List α) : List α :=
  if piece.getLast? = some mark then piece.dropLast else piece

/-- The lines of a text by position: it is cut at every `stop`, an empty last piece is dropped,
and each piece that a `stop` ended loses one `mark` at its end. -/
def cutLines (text : List α) : List (List α) :=
  (text.splitOn stop).dropLast.map (dropFinal mark) ++
    (text.splitOn stop).getLast?.toList.filter (· ≠ [])

variable {stop}

/-- What stands before the first `stop` is the first line. -/
theorem cutLines_append {body : List α} (h : stop ∉ body) (rest : List α) :
    cutLines stop mark (body ++ stop :: rest) = dropFinal mark body :: cutLines stop mark rest := by
  have hsplit := List.splitOn_append_cons_self_of_not_mem h rest
  have hne : rest.splitOn stop ≠ [] := List.splitOn_ne_nil stop rest
  rw [cutLines, hsplit, List.dropLast_cons_of_ne_nil hne, List.map_cons, List.cons_append, cutLines]
  rw [List.getLast?_cons, List.getLast?_eq_some_getLast hne, Option.getD_some]

/-- Without a `stop` there is one line, if any. -/
theorem cutLines_of_not_mem {text : List α} (h : stop ∉ text) :
    cutLines stop mark text = if text = [] then [] else [text] := by
  rw [cutLines, List.splitOn_eq_singleton h]
  by_cases hnil : text = []
  · rw [if_pos hnil, hnil]
    rfl
  · simp [hnil]

variable (stop)

/-- What holds without a `stop`, and of a text if it holds of what stands behind its first
`stop`, holds of every text. -/
theorem induction_on_stop {motive : List α → Prop} (text : List α)
    (whole : ∀ text, stop ∉ text → motive text)
    (first : ∀ body rest, stop ∉ body → motive rest → motive (body ++ stop :: rest)) :
    motive text := by
  induction hlength : text.length using Nat.strongRecOn generalizing text with
  | _ n ih =>
    by_cases hmem : stop ∈ text
    · obtain ⟨body, rest, rfl, hbody⟩ := List.eq_append_cons_of_mem hmem
      refine first body rest hbody (ih rest.length ?_ rest rfl)
      rw [← hlength, List.length_append, List.length_cons]
      omega
    · exact whole text hmem

/-- Every line has something of the text. -/
theorem length_cutLines_le (text : List α) : (cutLines stop mark text).length ≤ text.length := by
  induction text using induction_on_stop stop with
  | whole text h =>
    rw [cutLines_of_not_mem mark h]
    by_cases hnil : text = []
    · rw [if_pos hnil]
      exact Nat.zero_le _
    · rw [if_neg hnil]
      exact List.length_pos_iff.mpr hnil
  | first body rest h ih =>
    rw [cutLines_append mark h, List.length_cons, List.length_append, List.length_cons]
    omega

/-- A text can be cut behind any `stop`, and its lines are those of both parts. -/
theorem cutLines_append_cons (before after : List α) :
    cutLines stop mark (before ++ stop :: after) =
      cutLines stop mark (before ++ [stop]) ++ cutLines stop mark after := by
  induction before using induction_on_stop stop with
  | whole before h =>
    rw [cutLines_append mark h, cutLines_append mark h]
    rfl
  | first body rest h ih =>
    rw [List.append_assoc, List.append_assoc, List.cons_append, List.cons_append,
      cutLines_append mark h, cutLines_append mark h, ih, List.cons_append]

end Positions

/-- The lines that bytes deliver before the end are their lines by position. -/
theorem deliveredLines_eq_cutLines (bytes : Bytes) :
    (deliveredLines bytes none).map dropTerminator = cutLines newline carriageReturn bytes := by
  induction bytes using induction_on_stop newline with
  | whole text h =>
    rw [cutLines_of_not_mem carriageReturn h]
    by_cases hnil : text = []
    · rw [if_pos hnil, hnil]
      rfl
    · rw [if_neg hnil, deliveredLines_unfinished h hnil, List.map_singleton,
        dropTerminator_of_not_mem h]
  | first body rest h ih =>
    have hline : IsTerminated (body ++ [newline]) := ⟨body, h, rfl⟩
    rw [List.append_cons, deliveredLines_append hline, List.map_cons, ih, dropTerminator_append,
      ← List.append_cons, cutLines_append carriageReturn h]
    rfl

namespace Reader

/-- A line is read as text without its terminator, decoded. -/
theorem readText_of_line {r next : Reader} {line : Bytes} (h : r.readLine = (.ok (some line), next))
    (lineBuffer : Bytes) :
    r.readText lineBuffer =
      (.ok (some (Utf8.decodeStringLossy (dropTerminator line))), next, dropTerminator line) := by
  rw [readText, h]

/-- The end is read as the end. -/
theorem readText_of_end {r next : Reader} (h : r.readLine = (.ok none, next))
    (lineBuffer : Bytes) : r.readText lineBuffer = (.ok none, next, []) := by
  rw [readText, h]

/-- Reading text lines until the end, always into the same line buffer, gives these texts. -/
inductive YieldsTexts : Reader → Bytes → List String → Prop
  /-- The end is reached. -/
  | ended {r lineBuffer} (h : (r.readText lineBuffer).1 = .ok none) : YieldsTexts r lineBuffer []
  /-- A line is read, and the others after it. -/
  | line {r lineBuffer text next lineBuffer' texts}
      (h : r.readText lineBuffer = (.ok (some text), next, lineBuffer'))
      (later : YieldsTexts next lineBuffer' texts) : YieldsTexts r lineBuffer (text :: texts)

/-- A reader that has nothing to read and no failure is at the end. -/
theorem YieldsTexts.of_nothing {r : Reader} (hfailure : r.failure = none) (h : r.remaining = [])
    (lineBuffer : Bytes) : r.YieldsTexts lineBuffer [] := by
  have hread := readLine_unfinished (r := r) (by rw [h]; exact List.not_mem_nil)
  rw [hfailure, h, Option.elim_none, if_pos rfl] at hread
  exact .ended (congrArg Prod.fst (readText_of_end hread lineBuffer))

/-- A reader without a failure yields the text of every line that its bytes deliver, whatever
the line buffer holds. -/
theorem yieldsTexts {r : Reader} (hfailure : r.failure = none) (lineBuffer : Bytes) :
    r.YieldsTexts lineBuffer
      ((cutLines newline carriageReturn r.remaining).map Utf8.decodeStringLossy) := by
  generalize hbytes : r.remaining = bytes
  induction bytes using induction_on_stop newline generalizing r lineBuffer with
  | whole bytes hnone =>
    rw [cutLines_of_not_mem carriageReturn hnone]
    by_cases hnil : bytes = []
    · rw [if_pos hnil]
      exact .of_nothing hfailure (hbytes.trans hnil) lineBuffer
    · have hread := readLine_unfinished (r := r) (hbytes.symm ▸ hnone)
      rw [hfailure, hbytes, Option.elim_none, if_neg hnil] at hread
      have htext := readText_of_line hread lineBuffer
      rw [dropTerminator_of_not_mem hnone] at htext
      rw [if_neg hnil]
      exact .line htext (.of_nothing rfl rfl _)
  | first body rest hbody ih =>
    have hline : IsTerminated (body ++ [newline]) := ⟨body, hbody, rfl⟩
    rw [List.append_cons] at hbytes
    obtain ⟨next, hread, hremain, hnext⟩ := readLine_complete hline hbytes
    have htext := readText_of_line hread lineBuffer
    rw [dropTerminator_append] at htext
    rw [cutLines_append carriageReturn hbody]
    exact .line htext (ih (hnext.trans hfailure) _ hremain)

/-- Enough steps give all texts that are yielded. -/
theorem YieldsTexts.readTexts_eq {r : Reader} {lineBuffer : Bytes} {texts : List String}
    (h : r.YieldsTexts lineBuffer texts) {fuel : Nat} (hfuel : texts.length < fuel) :
    readTexts fuel r lineBuffer = texts := by
  induction h generalizing fuel with
  | @ended r lineBuffer h =>
    cases fuel with
    | zero => rfl
    | succ fuel =>
      rw [readTexts]
      split
      · next heq => rw [heq] at h; cases h
      · rfl
  | line h _ ih =>
    cases fuel with
    | zero => exact absurd hfuel (Nat.not_lt_zero _)
    | succ fuel =>
      rw [readTexts, h]
      exact congrArg (_ :: ·) (ih (Nat.lt_of_succ_lt_succ hfuel))

/-- A reader without a failure reads the text of every line that its bytes deliver. -/
theorem texts_eq {r : Reader} (hfailure : r.failure = none) (lineBuffer : Bytes) :
    r.texts lineBuffer =
      (cutLines newline carriageReturn r.remaining).map Utf8.decodeStringLossy := by
  refine (yieldsTexts hfailure lineBuffer).readTexts_eq ?_
  rw [List.length_map]
  exact Nat.lt_succ_of_le (length_cutLines_le newline carriageReturn r.remaining)

end Reader

namespace Script

/-- Pieces begin with a longest run of texts. -/
theorem exists_longest_run (pieces : List Bytes) :
    ∃ (raws : List String) (rest : List Bytes), pieces = raws.map Utf8.ofString ++ rest ∧
      ∀ piece ∈ rest.head?, ∀ text, piece ≠ Utf8.ofString text := by
  induction pieces with
  | nil => exact ⟨[], [], rfl, fun _ h => nomatch h⟩
  | cons piece pieces ih =>
    cases hdecode : Utf8.decodeString piece with
    | ok text =>
      obtain ⟨raws, rest, rfl, hrest⟩ := ih
      refine ⟨text :: raws, rest, ?_, hrest⟩
      rw [Utf8.decodeString_eq_ok_iff.mp hdecode]
      rfl
    | error malformed =>
      refine ⟨[], piece :: pieces, rfl, ?_⟩
      rintro _ ⟨⟩ text heq
      rw [Utf8.decodeString_eq_ok_iff.mpr heq] at hdecode
      cases hdecode

/-- The texts in front are made ready, and then the rest. -/
theorem prepareLines_append (baseDir : String) (failure : Option Fault) (number : Nat)
    (raws : List String) (rest : List Bytes) :
    (prepareLines baseDir failure number (raws.map Utf8.ofString ++ rest)).1.map Line.text =
        raws.map (prepareLine · baseDir) ++
          (prepareLines baseDir failure (number + raws.length) rest).1.map Line.text ∧
      (prepareLines baseDir failure number (raws.map Utf8.ofString ++ rest)).2 =
        (prepareLines baseDir failure (number + raws.length) rest).2 := by
  induction raws generalizing number with
  | nil => exact ⟨rfl, rfl⟩
  | cons text raws ih =>
    obtain ⟨htexts, hfailure⟩ := ih (number + 1)
    have hdecode : Utf8.decodeString (Utf8.ofString text) = .ok text :=
      Utf8.decodeString_eq_ok_iff.mpr rfl
    have hcount : number + 1 + raws.length = number + (text :: raws).length := by
      rw [List.length_cons]
      omega
    rw [List.map_cons, List.cons_append, prepareLines_cons _ hdecode]
    rw [hcount] at htexts hfailure
    exact ⟨congrArg (prepareLine text baseDir :: ·) htexts, hfailure⟩

/-- Where a piece is no text nothing more is made ready, and that is a failure for invalid data;
without one the reading ends as its source ends. -/
theorem prepareLines_rest (baseDir : String) (number : Nat) {rest : List Bytes}
    (h : ∀ piece ∈ rest.head?, ∀ text, piece ≠ Utf8.ofString text) :
    (prepareLines baseDir none number rest).1 = [] ∧
      (prepareLines baseDir none number rest).2.map Fault.kind =
        rest.head?.map fun _ => .invalidData := by
  cases rest with
  | nil => exact ⟨rfl, rfl⟩
  | cons piece rest =>
    cases hdecode : Utf8.decodeString piece with
    | ok text => exact absurd (Utf8.decodeString_eq_ok_iff.mp hdecode) (h piece rfl text)
    | error malformed =>
      rw [prepareLines_malformed rest hdecode]
      exact ⟨rfl, rfl⟩

/-- Let bytes arrive in any pieces, and begin, cut into lines by position, with a longest run of
texts. A script of these bytes has a line for each of these texts, numbered from 1 on and made
ready; then it ends, or, if a line follows that is no text, fails for invalid data. Reading text
lines of these bytes through a buffer of any capacity into a line buffer of any content gives
exactly these texts and, decoded without failing, every line after them; then it ends. -/
theorem read_eq_cutLines (baseDir : String) (chunks : List Bytes) (capacity : Nat)
    (lineBuffer : Bytes) :
    ∃ (raws : List String) (rest : List Bytes),
      cutLines newline carriageReturn chunks.flatten = raws.map Utf8.ofString ++ rest ∧
      (∀ piece ∈ rest.head?, ∀ text, piece ≠ Utf8.ofString text) ∧
      (read baseDir ⟨chunks, none⟩).lines.map Line.number = List.range' 1 raws.length ∧
      (read baseDir ⟨chunks, none⟩).lines.map Line.text = raws.map (prepareLine · baseDir) ∧
      (read baseDir ⟨chunks, none⟩).failure.map Fault.kind =
        (rest.head?.map fun _ => .invalidData) ∧
      (Reader.ofSource capacity ⟨chunks, none⟩).YieldsTexts lineBuffer
        (raws ++ rest.map Utf8.decodeStringLossy) ∧
      (Reader.ofSource capacity ⟨chunks, none⟩).texts lineBuffer =
        raws ++ rest.map Utf8.decodeStringLossy := by
  obtain ⟨raws, rest, hpieces, hrest⟩ :=
    exists_longest_run (cutLines newline carriageReturn chunks.flatten)
  obtain ⟨htexts, hfailure⟩ := prepareLines_append baseDir none 1 raws rest
  obtain ⟨hnone, hkind⟩ := prepareLines_rest baseDir (1 + raws.length) hrest
  have hread := read_eq baseDir ⟨chunks, none⟩
  rw [Source.bytes, deliveredLines_eq_cutLines, hpieces] at hread
  rw [hnone, List.map_nil, List.append_nil] at htexts
  have hlength := congrArg List.length htexts
  rw [List.length_map, List.length_map] at hlength
  have hremaining := Reader.remaining_ofSource capacity ⟨chunks, none⟩
  have hshown : (cutLines newline carriageReturn
      (Reader.ofSource capacity ⟨chunks, none⟩).remaining).map Utf8.decodeStringLossy =
        raws ++ rest.map Utf8.decodeStringLossy := by
    have hraws : raws.map (Utf8.decodeStringLossy ∘ Utf8.ofString) = raws :=
      List.map_id'' (fun text => Utf8.decodeStringLossy_ofString text) raws
    rw [hremaining, Source.bytes, hpieces, List.map_append, List.map_map, hraws]
  refine ⟨raws, rest, hpieces, hrest, ?_, ?_, ?_, ?_, ?_⟩
  · rw [read_numbers, hread, hlength]
  · rw [hread, htexts]
  · rw [hread]
    exact (congrArg (Option.map Fault.kind) hfailure).trans hkind
  · rw [← hshown]
    exact Reader.yieldsTexts rfl lineBuffer
  · rw [← hshown]
    exact Reader.texts_eq rfl lineBuffer

end Script

end LineScript
