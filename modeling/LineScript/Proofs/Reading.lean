import LineScript.Script

/-!
# The lines of a script

What a script reads depends on the bytes that arrive and on what ends them, and neither on
the pieces in which they arrive nor on the buffer. The bytes are cut after each newline;
what stands after the last one is a line before the end, but none before a failure. The
longest run of lines that are UTF-8 is kept, under the numbers from 1 on. Main result: the
lines that were read before a failure are those of a script of its own, which is read
without one.
-/

namespace LineScript

/-- The bytes of a source, however they arrive. -/
def Source.bytes (source : Source) : Bytes := source.chunks.flatten

/-- The complete lines of bytes, each with its newline, and what stands after the last. -/
def splitLines : Bytes → List Bytes × Bytes
  | [] => ([], [])
  | b :: rest =>
    if b = newline then ([b] :: (splitLines rest).1, (splitLines rest).2)
    else
      match (splitLines rest).1 with
      | [] => ([], b :: (splitLines rest).2)
      | line :: lines => ((b :: line) :: lines, (splitLines rest).2)

/-- The lines that bytes deliver: what stands after the last newline is one if it is not
empty and the end comes after it, but not if a failure does. -/
def deliveredLines (bytes : Bytes) (failure : Option Fault) : List Bytes :=
  (splitLines bytes).1 ++
    if failure.isSome || (splitLines bytes).2.isEmpty then [] else [(splitLines bytes).2]

/-- The bytes of the first complete lines of a source. -/
def Source.firstLines (source : Source) (count : Nat) : Bytes :=
  ((splitLines source.bytes).1.take count).flatten

/-- Whether a line is complete: a newline ends it, and none stands before. -/
def IsTerminated (line : Bytes) : Prop := ∃ body, newline ∉ body ∧ line = body ++ [newline]

/-- Bytes without a newline have no complete line. -/
theorem splitLines_of_not_mem {bytes : Bytes} (h : newline ∉ bytes) :
    splitLines bytes = ([], bytes) := by
  induction bytes with
  | nil => rfl
  | cons b rest ih =>
    have hb : b ≠ newline := fun heq => h (heq ▸ List.mem_cons_self)
    have hrest : newline ∉ rest := fun hmem => h (List.mem_cons_of_mem b hmem)
    simp only [splitLines, if_neg hb, ih hrest]

/-- A complete line comes first. -/
theorem splitLines_append {line : Bytes} (h : IsTerminated line) (rest : Bytes) :
    splitLines (line ++ rest) = (line :: (splitLines rest).1, (splitLines rest).2) := by
  obtain ⟨body, hbody, rfl⟩ := h
  induction body with
  | nil => exact if_pos rfl
  | cons b body ih =>
    have hb : b ≠ newline := fun heq => hbody (heq ▸ List.mem_cons_self)
    have hrest : newline ∉ body := fun hmem => hbody (List.mem_cons_of_mem b hmem)
    rw [List.cons_append, List.cons_append, splitLines, if_neg hb, ih hrest]

/-- Complete lines in a row are cut again where they were joined. -/
theorem splitLines_flatten {lines : List Bytes} (h : ∀ line ∈ lines, IsTerminated line)
    (rest : Bytes) :
    splitLines (lines.flatten ++ rest) =
      (lines ++ (splitLines rest).1, (splitLines rest).2) := by
  induction lines with
  | nil => rfl
  | cons line lines ih =>
    obtain ⟨hline, hlines⟩ := List.forall_mem_cons.mp h
    rw [List.flatten_cons, List.append_assoc, splitLines_append hline, ih hlines,
      List.cons_append]

/-- A complete line is delivered first. -/
theorem deliveredLines_append {line : Bytes} (h : IsTerminated line) (rest : Bytes)
    (failure : Option Fault) :
    deliveredLines (line ++ rest) failure = line :: deliveredLines rest failure := by
  simp only [deliveredLines, splitLines_append h, List.cons_append]

/-- Without a newline there is one line before the end, if any. -/
theorem deliveredLines_unfinished {bytes : Bytes} (h : newline ∉ bytes) (hne : bytes ≠ []) :
    deliveredLines bytes none = [bytes] := by
  have hnonempty : bytes.isEmpty = false := List.isEmpty_eq_false_iff.mpr hne
  simp only [deliveredLines, splitLines_of_not_mem h, hnonempty]
  rfl

/-- Where no line is complete there is no newline. -/
theorem splitAfterNewline?_eq_none {bytes : Bytes} (h : splitAfterNewline? bytes = none) :
    newline ∉ bytes := by
  induction bytes with
  | nil => exact List.not_mem_nil
  | cons b rest ih =>
    by_cases hb : b = newline
    · rw [splitAfterNewline?, if_pos hb] at h
      cases h
    · rw [splitAfterNewline?, if_neg hb, Option.map_eq_none_iff] at h
      exact List.not_mem_cons_of_ne_of_not_mem (Ne.symm hb) (ih h)

/-- The first line that is found is complete, and the rest follows it. -/
theorem splitAfterNewline?_eq_some {bytes line rest : Bytes}
    (h : splitAfterNewline? bytes = some (line, rest)) :
    IsTerminated line ∧ bytes = line ++ rest := by
  induction bytes generalizing line with
  | nil => cases h
  | cons b bytes ih =>
    by_cases hb : b = newline
    · rw [splitAfterNewline?, if_pos hb] at h
      cases h
      exact ⟨⟨[], List.not_mem_nil, congrArg (· :: []) hb⟩, rfl⟩
    · rw [splitAfterNewline?, if_neg hb, Option.map_eq_some_iff] at h
      obtain ⟨⟨first, second⟩, hfirst, hpieces⟩ := h
      cases hpieces
      obtain ⟨⟨body, hbody, rfl⟩, rfl⟩ := ih hfirst
      refine ⟨⟨b :: body, ?_, rfl⟩, rfl⟩
      exact List.not_mem_cons_of_ne_of_not_mem (Ne.symm hb) hbody

/-- Bytes that begin with a complete line. -/
theorem splitAfterNewline?_append {line : Bytes} (h : IsTerminated line) (rest : Bytes) :
    splitAfterNewline? (line ++ rest) = some (line, rest) := by
  obtain ⟨body, hbody, rfl⟩ := h
  induction body with
  | nil => exact if_pos rfl
  | cons b body ih =>
    have hb : b ≠ newline := fun heq => hbody (heq ▸ List.mem_cons_self)
    have hrest : newline ∉ body := fun hmem => hbody (List.mem_cons_of_mem b hmem)
    rw [List.cons_append, List.cons_append, splitAfterNewline?, if_neg hb, ih hrest]
    rfl

/-- A complete line ends in a newline. -/
theorem IsTerminated.getLast? {line : Bytes} (h : IsTerminated line) :
    line.getLast? = some newline := by
  obtain ⟨body, _, rfl⟩ := h
  exact List.getLast?_concat

/-- A complete line is not empty. -/
theorem IsTerminated.ne_nil {line : Bytes} (h : IsTerminated line) : line ≠ [] := by
  obtain ⟨body, _, rfl⟩ := h
  exact List.append_ne_nil_of_right_ne_nil _ (List.cons_ne_nil _ _)

/-- The pieces of a chunk make up the chunk. -/
theorem flatten_cutEvery {size : Nat} (hsize : 0 < size) (fuel : Nat) (bytes : Bytes)
    (h : bytes.length ≤ fuel) : (cutEvery size fuel bytes).flatten = bytes := by
  induction fuel generalizing bytes with
  | zero =>
    rw [List.eq_nil_of_length_eq_zero (Nat.le_zero.mp h)]
    rfl
  | succ fuel ih =>
    cases bytes with
    | nil => rfl
    | cons b rest =>
      have hrest : ((b :: rest).drop size).length ≤ fuel := by
        rw [List.length_drop]
        omega
      rw [cutEvery, List.flatten_cons, ih _ hrest, List.take_append_drop]
      exact List.cons_ne_nil b rest

namespace Reader

/-- A reader takes the bytes of its source. -/
theorem remaining_ofSource (capacity : Nat) (source : Source) :
    (ofSource capacity source).remaining = source.bytes := by
  have hpieces (chunk : Bytes) :
      (cutEvery (max capacity 1) chunk.length chunk).flatten = chunk :=
    flatten_cutEvery (Nat.lt_of_lt_of_le Nat.one_pos (Nat.le_max_right _ _)) chunk.length chunk
      (Nat.le_refl _)
  rw [remaining, ofSource, List.nil_append, Source.bytes]
  induction source.chunks with
  | nil => rfl
  | cons chunk chunks ih =>
    rw [List.flatMap_cons, List.flatten_append, hpieces, ih, List.flatten_cons]

/-- A complete line is taken off the bytes, wherever they were cut. -/
theorem takeLine_complete {buffer : Bytes} {fetches : List Bytes} {line rest : Bytes}
    (hline : IsTerminated line) (h : buffer ++ fetches.flatten = line ++ rest) :
    ∃ buffer' fetches', takeLine buffer fetches = (line, buffer', fetches') ∧
      buffer' ++ fetches'.flatten = rest := by
  induction fetches generalizing buffer line with
  | nil =>
    rw [List.flatten_nil, List.append_nil] at h
    refine ⟨rest, [], ?_, List.append_nil rest⟩
    rw [takeLine, h, splitAfterNewline?_append hline]
  | cons next later ih =>
    cases hfirst : splitAfterNewline? buffer with
    | some pieces =>
      obtain ⟨hhead, hbuffer⟩ := splitAfterNewline?_eq_some hfirst
      have hpieces : splitAfterNewline? (line ++ rest) =
          some (pieces.1, pieces.2 ++ (next :: later).flatten) := by
        rw [← h, hbuffer, List.append_assoc, splitAfterNewline?_append hhead]
      rw [splitAfterNewline?_append hline] at hpieces
      cases hpieces
      refine ⟨pieces.2, next :: later, ?_, rfl⟩
      rw [takeLine, hfirst]
    | none =>
      -- The line goes on in the next piece, so the buffer is a part of it.
      have hnone : newline ∉ buffer := splitAfterNewline?_eq_none hfirst
      obtain ⟨body, hbody, rfl⟩ := hline
      have hpart : ∃ body', body = buffer ++ body' := by
        rw [List.append_assoc] at h
        rcases List.append_eq_append_iff.mp h with ⟨body', hbody', _⟩ | ⟨own, hown, hown'⟩
        · exact ⟨body', hbody'⟩
        · cases own with
          | nil => exact ⟨[], by rw [hown, List.append_nil, List.append_nil]⟩
          | cons b own =>
            rw [List.singleton_append, List.cons_append] at hown'
            obtain ⟨hb, _⟩ := List.cons.inj hown'
            refine absurd ?_ hnone
            rw [hown, hb]
            exact List.mem_append_right _ List.mem_cons_self
      obtain ⟨body', rfl⟩ := hpart
      have hbody' : newline ∉ body' := fun hmem => hbody (List.mem_append_right _ hmem)
      have hrest : next ++ later.flatten = (body' ++ [newline]) ++ rest := by
        rw [List.append_assoc, List.append_assoc, List.flatten_cons] at h
        rw [List.append_cancel_left h, List.append_assoc]
      obtain ⟨buffer', fetches', htake, hremain⟩ := ih ⟨body', hbody', rfl⟩ hrest
      refine ⟨buffer', fetches', ?_, hremain⟩
      rw [takeLine, hfirst]
      simp only [htake, List.append_assoc]

/-- Without a newline everything is taken at once. -/
theorem takeLine_unfinished {buffer : Bytes} {fetches : List Bytes}
    (h : newline ∉ buffer ++ fetches.flatten) :
    takeLine buffer fetches = (buffer ++ fetches.flatten, [], []) := by
  have hnone (bytes : Bytes) (hbytes : newline ∉ bytes) : splitAfterNewline? bytes = none := by
    cases hsplit : splitAfterNewline? bytes with
    | none => rfl
    | some pieces =>
      obtain ⟨⟨body, _, hline⟩, hall⟩ := splitAfterNewline?_eq_some hsplit
      refine absurd ?_ hbytes
      rw [hall, hline]
      exact List.mem_append_left _ (List.mem_append_right _ List.mem_cons_self)
  induction fetches generalizing buffer with
  | nil =>
    rw [List.flatten_nil, List.append_nil] at h
    rw [takeLine, hnone buffer h, List.flatten_nil, List.append_nil]
  | cons next later ih =>
    rw [List.flatten_cons] at h
    have hbuffer : newline ∉ buffer := fun hmem => h (List.mem_append_left _ hmem)
    have hrest : newline ∉ next ++ later.flatten := fun hmem => h (List.mem_append_right _ hmem)
    rw [takeLine, hnone buffer hbuffer]
    simp only [ih hrest, List.flatten_cons]

/-- A reader that has a complete line before it reads that line. -/
theorem readLine_complete {r : Reader} {line rest : Bytes} (hline : IsTerminated line)
    (h : r.remaining = line ++ rest) :
    ∃ next, r.readLine = (.ok (some line), next) ∧ next.remaining = rest ∧
      next.failure = r.failure := by
  obtain ⟨buffer', fetches', htake, hremain⟩ := takeLine_complete hline h
  refine ⟨⟨buffer', fetches', r.failure⟩, ?_, hremain, rfl⟩
  simp only [readLine, htake, hline.getLast?, beq_self_eq_true, if_neg hline.ne_nil]

/-- A reader without a newline before it reads all there is before the end, and fails before
a failure. -/
theorem readLine_unfinished {r : Reader} (h : newline ∉ r.remaining) :
    r.readLine =
      (r.failure.elim (.ok (if r.remaining = [] then none else some r.remaining)) .error,
        ⟨[], [], none⟩) := by
  have hincomplete : (r.remaining.getLast? == some newline) = false := by
    rw [beq_eq_false_iff_ne]
    exact fun hlast => h (List.mem_of_getLast? hlast)
  simp only [readLine, takeLine_unfinished h]
  rw [remaining] at hincomplete ⊢
  rw [hincomplete]
  cases r.failure <;> rfl

/-- A reader gives the lines that its bytes deliver, and then what ends it. -/
theorem readLines_eq {fuel : Nat} {r : Reader} (h : r.remaining.length < fuel) :
    readLines fuel r = ((deliveredLines r.remaining r.failure).map dropTerminator, r.failure) := by
  induction fuel generalizing r with
  | zero => exact absurd h (Nat.not_lt_zero _)
  | succ fuel ih =>
    cases hsplit : splitAfterNewline? r.remaining with
    | some pieces =>
      obtain ⟨line, rest⟩ := pieces
      obtain ⟨hline, hbytes⟩ := splitAfterNewline?_eq_some hsplit
      obtain ⟨next, hread, hremain, hfailure⟩ := readLine_complete hline hbytes
      have hlength : next.remaining.length < fuel := by
        have hpositive : 0 < line.length := List.length_pos_iff.mpr hline.ne_nil
        rw [hbytes, List.length_append] at h
        rw [hremain]
        omega
      have hrest := ih hlength
      rw [hremain, hfailure] at hrest
      rw [readLines, hread]
      simp only [hrest, hbytes, deliveredLines_append hline, List.map_cons]
    | none =>
      have hnone : newline ∉ r.remaining := splitAfterNewline?_eq_none hsplit
      have hlines : deliveredLines r.remaining r.failure =
          if r.failure.isSome || r.remaining.isEmpty then [] else [r.remaining] := by
        rw [deliveredLines, splitLines_of_not_mem hnone, List.nil_append]
      rw [readLines, readLine_unfinished hnone, hlines]
      cases r.failure with
      | some fault => rfl
      | none =>
        cases hbytes : r.remaining with
        | nil => rfl
        | cons b rest =>
          -- Nothing is left for a second line.
          have hend : readLines fuel ⟨[], [], none⟩ = ([], none) := by
            refine ih ?_
            rw [hbytes, List.length_cons] at h
            exact Nat.lt_of_le_of_lt (Nat.zero_le _) (Nat.lt_of_succ_lt_succ h)
          simp only [Option.elim_none, if_neg (List.cons_ne_nil b rest), hend]
          rfl

/-- All lines of a reader are those that its bytes deliver. -/
theorem lines_eq (r : Reader) :
    r.lines = ((deliveredLines r.remaining r.failure).map dropTerminator, r.failure) :=
  readLines_eq (Nat.lt_succ_self _)

end Reader

/-- The complete lines of bytes are complete. -/
theorem isTerminated_of_mem_splitLines {bytes line : Bytes} (h : line ∈ (splitLines bytes).1) :
    IsTerminated line := by
  induction bytes generalizing line with
  | nil => cases h
  | cons b rest ih =>
    by_cases hb : b = newline
    · simp only [splitLines, if_pos hb, List.mem_cons] at h
      rcases h with rfl | hrest
      · exact ⟨[], List.not_mem_nil, congrArg (· :: []) hb⟩
      · exact ih hrest
    · rw [splitLines, if_neg hb] at h
      cases hlines : (splitLines rest).1 with
      | nil =>
        rw [hlines] at h
        cases h
      | cons first lines =>
        rw [hlines] at h ih
        rcases List.mem_cons.mp h with rfl | hrest
        · obtain ⟨body, hbody, rfl⟩ := ih List.mem_cons_self
          exact ⟨b :: body, List.not_mem_cons_of_ne_of_not_mem (Ne.symm hb) hbody, rfl⟩
        · exact ih (List.mem_cons_of_mem first hrest)

namespace Script

/-- A script is made of the lines that its bytes deliver. -/
theorem read_eq (baseDir : String) (source : Source) :
    read baseDir source =
      ⟨baseDir,
        (prepareLines baseDir source.failure 1
          ((deliveredLines source.bytes source.failure).map dropTerminator)).1,
        (prepareLines baseDir source.failure 1
          ((deliveredLines source.bytes source.failure).map dropTerminator)).2⟩ := by
  have hlines := Reader.lines_eq (Reader.ofSource bufferSize source)
  rw [Reader.remaining_ofSource] at hlines
  rw [read, hlines]
  rfl

/-- A line that is UTF-8 is made ready, and the lines after it go on. -/
theorem prepareLines_cons {baseDir : String} {failure : Option Fault} {number : Nat}
    {raw : Bytes} {text : String} (rest : List Bytes) (h : Utf8.decodeString raw = .ok text) :
    prepareLines baseDir failure number (raw :: rest) =
      (⟨number, prepareLine text baseDir⟩ :: (prepareLines baseDir failure (number + 1) rest).1,
        (prepareLines baseDir failure (number + 1) rest).2) := by
  rw [prepareLines, h]

/-- Nothing is made ready from a line that is not UTF-8 on. -/
theorem prepareLines_malformed {baseDir : String} {failure : Option Fault} {number : Nat}
    {raw : Bytes} {malformed : Utf8.Malformed} (rest : List Bytes)
    (h : Utf8.decodeString raw = .error malformed) :
    prepareLines baseDir failure number (raw :: rest) =
      ([], some ⟨.invalidData, malformed.message⟩) := by
  rw [prepareLines, h]

/-- Lines are numbered in turn. -/
theorem prepareLines_numbers (baseDir : String) (failure : Option Fault) (number : Nat)
    (raws : List Bytes) :
    (prepareLines baseDir failure number raws).1.map Line.number =
      List.range' number (prepareLines baseDir failure number raws).1.length := by
  induction raws generalizing number with
  | nil => rfl
  | cons raw rest ih =>
    cases hraw : Utf8.decodeString raw with
    | error malformed =>
      rw [prepareLines_malformed rest hraw]
      rfl
    | ok text =>
      rw [prepareLines_cons rest hraw, List.map_cons, ih, List.length_cons, List.range'_succ]

/-- The lines of a script are numbered from 1 on. -/
theorem read_numbers (baseDir : String) (source : Source) :
    (read baseDir source).lines.map Line.number =
      List.range' 1 (read baseDir source).lines.length := by
  rw [read_eq]
  exact prepareLines_numbers baseDir source.failure 1 _

/-- The lines that are made ready before a failure are made ready without it too. -/
theorem prepareLines_take (baseDir : String) (failure : Option Fault) (number : Nat)
    (raws : List Bytes) :
    prepareLines baseDir none number
        (raws.take (prepareLines baseDir failure number raws).1.length) =
      ((prepareLines baseDir failure number raws).1, none) := by
  induction raws generalizing number with
  | nil => rfl
  | cons raw rest ih =>
    cases hraw : Utf8.decodeString raw with
    | error malformed =>
      rw [prepareLines_malformed rest hraw]
      rfl
    | ok text =>
      rw [prepareLines_cons rest hraw, List.length_cons, List.take_succ_cons,
        prepareLines_cons _ hraw, ih]

/-- Either all lines are made ready, or the next one is not UTF-8. -/
theorem prepareLines_failure (baseDir : String) (failure : Option Fault) (number : Nat)
    (raws : List Bytes) :
    ((prepareLines baseDir failure number raws).1.length = raws.length ∧
        (prepareLines baseDir failure number raws).2 = failure) ∨
      ∃ raw malformed, raws[(prepareLines baseDir failure number raws).1.length]? = some raw ∧
        Utf8.decodeString raw = .error malformed ∧
        (prepareLines baseDir failure number raws).2 =
          some ⟨.invalidData, malformed.message⟩ := by
  induction raws generalizing number with
  | nil => exact .inl ⟨rfl, rfl⟩
  | cons raw rest ih =>
    cases hraw : Utf8.decodeString raw with
    | error malformed =>
      rw [prepareLines_malformed rest hraw]
      exact .inr ⟨raw, malformed, rfl, hraw, rfl⟩
    | ok text =>
      rw [prepareLines_cons rest hraw, List.length_cons, List.length_cons,
        List.getElem?_cons_succ]
      rcases ih (number + 1) with ⟨hlength, hfailure⟩ | hmalformed
      · exact .inl ⟨congrArg (· + 1) hlength, hfailure⟩
      · exact .inr hmalformed

/-- A script that could not be read to its end has only complete lines, and reading just
these lines gives the same lines without a failure. -/
theorem read_firstLines {baseDir : String} {source : Source} {fault : Fault}
    (h : (read baseDir source).failure = some fault) :
    read baseDir (.ofBytes (source.firstLines (read baseDir source).lines.length)) =
      ⟨baseDir, (read baseDir source).lines, none⟩ := by
  have hread := read_eq baseDir source
  generalize hdelivered : deliveredLines source.bytes source.failure = delivered at hread
  rw [hread] at h ⊢
  dsimp only at h ⊢
  generalize hcount : (prepareLines baseDir source.failure 1
    (delivered.map dropTerminator)).1.length = count
  have hwhole : delivered.take count = (splitLines source.bytes).1.take count := by
    rw [← hdelivered, deliveredLines]
    cases hfailure : source.failure with
    | some fault =>
      rw [Option.isSome_some, Bool.true_or, if_pos rfl, List.append_nil]
    | none =>
      -- The next line is not UTF-8, so an unfinished line is none of those before it.
      refine List.take_append_of_le_length ?_
      have hlonger : count < delivered.length := by
        rcases prepareLines_failure baseDir source.failure 1
          (delivered.map dropTerminator) with ⟨_, hnone⟩ | ⟨raw, _, hnext, _, _⟩
        · rw [hnone, hfailure] at h
          cases h
        · rw [hcount] at hnext
          have hindex := (List.getElem?_eq_some_iff.mp hnext).1
          rwa [List.length_map] at hindex
      have hunfinished : delivered.length ≤ (splitLines source.bytes).1.length + 1 := by
        rw [← hdelivered, deliveredLines, List.length_append]
        split <;> simp
      omega
  have hterminated : ∀ line ∈ (splitLines source.bytes).1.take count, IsTerminated line :=
    fun line hline => isTerminated_of_mem_splitLines (List.mem_of_mem_take hline)
  have hsplit : splitLines (source.firstLines count) =
      ((splitLines source.bytes).1.take count, []) := by
    have hflatten := splitLines_flatten hterminated []
    rw [List.append_nil] at hflatten
    rw [Source.firstLines, hflatten, splitLines, List.append_nil]
  have hshorter : deliveredLines (source.firstLines count) none = delivered.take count := by
    rw [deliveredLines, hsplit, hwhole]
    exact List.append_nil _
  have hbytes : (Source.ofBytes (source.firstLines count)).bytes = source.firstLines count :=
    List.append_nil _
  rw [read_eq, hbytes]
  have htake := prepareLines_take baseDir source.failure 1 (delivered.map dropTerminator)
  rw [hcount] at htake
  rw [Source.ofBytes, hshorter, List.map_take, htake]

end Script

end LineScript
