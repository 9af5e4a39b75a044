import LineScript.Proofs.Boundary
import LineScript.Proofs.Cutting

/-!
# Decoding line by line

Output is cut into lines as bytes, and each line is decoded on its own without failing. A
newline is a boundary for the decoder and so is a carriage return, so that decoding everything
first and cutting the text into lines gives the same. Main result: bytes that are no UTF-8 on
one line change nothing on any other, and a text that is read line by line can be joined again.
-/

namespace LineScript

namespace Utf8

/-- Nothing is decoded from nothing only. -/
theorem decodeLossy_eq_nil_iff {bytes : Bytes} : decodeLossy bytes = [] ↔ bytes = [] := by
  refine ⟨fun h => ?_, fun h => h ▸ decodeLossy_nil⟩
  rw [decodeLossy, List.map_eq_nil_iff] at h
  exact (eq_nil_of_run h).2

/-- A carriage return at the end is dropped before or after decoding. -/
theorem dropFinal_decodeLossy (bytes : Bytes) :
    dropFinal '\r' (decodeLossy bytes) = decodeLossy (dropFinal carriageReturn bytes) := by
  have hlast := isAscii_carriageReturn.getLast?_decodeLossy bytes
  by_cases hreturn : bytes.getLast? = some carriageReturn
  · rw [dropFinal, if_pos (hlast.mpr hreturn), dropFinal, if_pos hreturn]
    obtain ⟨before, rfl⟩ := List.getLast?_eq_some_iff.mp hreturn
    rw [isAscii_carriageReturn.decodeLossy_append before [], List.dropLast_concat]
    exact List.dropLast_concat
  · rw [dropFinal, if_neg (fun h => hreturn (hlast.mp h)), dropFinal, if_neg hreturn]

/-- Decoding everything and cutting the text is cutting the bytes and decoding each line. -/
theorem cutLines_decodeLossy (bytes : Bytes) :
    cutLines '\n' '\r' (decodeLossy bytes) =
      (cutLines newline carriageReturn bytes).map decodeLossy := by
  induction bytes using induction_on_stop newline with
  | whole bytes h =>
    have hnone : '\n' ∉ decodeLossy bytes := fun hmem =>
      h (isAscii_newline.mem_of_cutInto (cutInto_run bytes).1 hmem)
    rw [cutLines_of_not_mem '\r' hnone, cutLines_of_not_mem carriageReturn h]
    by_cases hnil : bytes = []
    · rw [if_pos (decodeLossy_eq_nil_iff.mpr hnil), if_pos hnil]
      rfl
    · rw [if_neg (fun h => hnil (decodeLossy_eq_nil_iff.mp h)), if_neg hnil]
      rfl
  | first body rest h ih =>
    have hnone : '\n' ∉ decodeLossy body := fun hmem =>
      h (isAscii_newline.mem_of_cutInto (cutInto_run body).1 hmem)
    rw [isAscii_newline.decodeLossy_append, cutLines_append '\r' hnone, ih,
      cutLines_append carriageReturn h, List.map_cons, dropFinal_decodeLossy]

end Utf8

section Joining

variable {α : Type} [DecidableEq α] {stop mark : α}

/-- No line has a `stop`. -/
theorem not_mem_of_mem_cutLines {text line : List α} (h : line ∈ cutLines stop mark text) :
    stop ∉ line := by
  induction text using induction_on_stop stop with
  | whole text hnone =>
    rw [cutLines_of_not_mem mark hnone] at h
    split at h
    · cases h
    · rwa [List.mem_singleton.mp h]
  | first body rest hnone ih =>
    rw [cutLines_append mark hnone, List.mem_cons] at h
    rcases h with rfl | hrest
    · rw [dropFinal]
      split
      · exact fun hmem => hnone (List.dropLast_subset body hmem)
      · exact hnone
    · exact ih hrest

/-- Only an empty text has no line. -/
theorem cutLines_eq_nil_iff {text : List α} : cutLines stop mark text = [] ↔ text = [] := by
  induction text using induction_on_stop stop with
  | whole text h =>
    rw [cutLines_of_not_mem mark h]
    by_cases hnil : text = [] <;> simp [hnil]
  | first body rest h _ => simp [cutLines_append mark h]

/-- The lines of a text in which no `mark` stands before a `stop` give the text when they are
joined, but for a `stop` at its end. -/
theorem intercalate_cutLines {text : List α} (h : ¬ [mark, stop] <:+: text) :
    [stop].intercalate (cutLines stop mark text) ++
      (if text.getLast? = some stop then [stop] else []) = text := by
  induction text using induction_on_stop stop with
  | whole text hnone =>
    have hlast : text.getLast? ≠ some stop := fun hlast => hnone (List.mem_of_getLast? hlast)
    rw [cutLines_of_not_mem mark hnone, if_neg hlast, List.append_nil]
    by_cases hnil : text = []
    · rw [if_pos hnil, hnil]
      rfl
    · rw [if_neg hnil, List.intercalate_singleton]
  | first body rest hnone ih =>
    have hkept : dropFinal mark body = body := by
      refine if_neg fun hlast => h ?_
      obtain ⟨before, rfl⟩ := List.getLast?_eq_some_iff.mp hlast
      exact ⟨before, rest, by simp⟩
    have hrest : ¬ [mark, stop] <:+: rest := fun hfound => by
      refine h (hfound.trans (List.IsSuffix.isInfix ?_))
      exact (List.suffix_cons stop rest).trans (List.suffix_append body _)
    rw [cutLines_append mark hnone, hkept]
    by_cases hnil : rest = []
    · rw [hnil, cutLines_eq_nil_iff.mpr rfl, List.intercalate_singleton,
        if_pos List.getLast?_concat]
    · have hlines : cutLines stop mark rest ≠ [] := fun h => hnil (cutLines_eq_nil_iff.mp h)
      have hlast : (body ++ stop :: rest).getLast? = rest.getLast? := by
        rw [List.getLast?_append, List.getLast?_cons_of_ne_nil hnil,
          Option.or_of_isSome (List.getLast?_isSome.mpr hnil)]
      rw [List.intercalate_cons_of_ne_nil hlines, hlast, List.append_assoc, List.append_assoc,
        ih hrest]
      rfl

end Joining

namespace Reader

/-- The text lines of bytes, in whatever pieces they arrive, are those of the decoded text. -/
theorem texts_ofSource (chunks : List Bytes) (capacity : Nat) (lineBuffer : Bytes) :
    (ofSource capacity ⟨chunks, none⟩).texts lineBuffer =
      (cutLines '\n' '\r' (Utf8.decodeLossy chunks.flatten)).map String.ofList := by
  have hremaining := remaining_ofSource capacity ⟨chunks, none⟩
  rw [Source.bytes] at hremaining
  rw [texts_eq rfl, hremaining, Utf8.cutLines_decodeLossy, List.map_map]
  rfl

/-- The text lines of bytes that arrive at once. -/
theorem texts_ofBytes (bytes : Bytes) (capacity : Nat) (lineBuffer : Bytes) :
    (ofSource capacity (.ofBytes bytes)).texts lineBuffer =
      (cutLines '\n' '\r' (Utf8.decodeLossy bytes)).map String.ofList := by
  have hflatten : [bytes].flatten = bytes := List.append_nil bytes
  have htexts := texts_ofSource [bytes] capacity lineBuffer
  rwa [hflatten] at htexts

/-- Let bytes arrive in any pieces, through a buffer of any capacity, and be read as text line
by line until the end, into a line buffer of any content. There is exactly one way to cut the
bytes into characters and longest stretches that belong to none; with U+FFFD for each stretch
that is a text, and its lines by position are the lines that are read. No line has a newline.
Bytes up to a newline and the bytes behind it give the same lines as if they were read alone.
The lines of an encoded text without a carriage return before a newline, joined by newlines, are
the text but for a newline at its end. -/
theorem texts_decoded (chunks : List Bytes) (capacity : Nat) (lineBuffer : Bytes) :
    (ofSource capacity ⟨chunks, none⟩).YieldsTexts lineBuffer
        ((ofSource capacity ⟨chunks, none⟩).texts lineBuffer) ∧
      (∃ pieces, (∀ others, Utf8.CutInto chunks.flatten others ↔ others = pieces) ∧
        (ofSource capacity ⟨chunks, none⟩).texts lineBuffer =
          (cutLines '\n' '\r' (pieces.map Utf8.Piece.shown)).map String.ofList) ∧
      (∀ text ∈ (ofSource capacity ⟨chunks, none⟩).texts lineBuffer, '\n' ∉ text.toList) ∧
      (∀ before after, chunks.flatten = before ++ newline :: after →
        (ofSource capacity ⟨chunks, none⟩).texts lineBuffer =
          (ofSource capacity (.ofBytes (before ++ [newline]))).texts lineBuffer ++
            (ofSource capacity (.ofBytes after)).texts lineBuffer) ∧
      ∀ text : String, chunks.flatten = Utf8.ofString text → ¬ ['\r', '\n'] <:+: text.toList →
        ['\n'].intercalate
            (((ofSource capacity ⟨chunks, none⟩).texts lineBuffer).map String.toList) ++
          (if text.toList.getLast? = some '\n' then ['\n'] else []) = text.toList := by
  have htexts := texts_ofSource chunks capacity lineBuffer
  refine ⟨?_, ⟨Utf8.pieces chunks.flatten, fun others => Utf8.cutInto_iff, htexts⟩, ?_, ?_, ?_⟩
  · have hyields := yieldsTexts (r := ofSource capacity ⟨chunks, none⟩) rfl lineBuffer
    rwa [← texts_eq rfl lineBuffer] at hyields
  · intro text hmem
    rw [htexts] at hmem
    obtain ⟨line, hline, rfl⟩ := List.mem_map.mp hmem
    rw [String.toList_ofList]
    exact not_mem_of_mem_cutLines hline
  · intro before after hbytes
    rw [htexts, texts_ofBytes, texts_ofBytes, hbytes,
      Utf8.isAscii_newline.decodeLossy_append before after,
      Utf8.isAscii_newline.decodeLossy_append before [], cutLines_append_cons, List.map_append]
    rfl
  · intro text hbytes hplain
    have hdecoded : Utf8.decodeLossy chunks.flatten = text.toList := by
      have hstring := congrArg String.toList (Utf8.decodeStringLossy_ofString text)
      rwa [Utf8.decodeStringLossy, String.toList_ofList, ← hbytes] at hstring
    have hlines : ((cutLines '\n' '\r' text.toList).map String.ofList).map String.toList =
        cutLines '\n' '\r' text.toList := by
      rw [List.map_map]
      exact List.map_id'' (fun line => String.toList_ofList) _
    rw [htexts, hdecoded, hlines]
    exact intercalate_cutLines hplain

/-- A character that breaks off at the end of a line leaves the next line alone, and an encoded
character may arrive in two pieces. -/
theorem texts_decoded_truncated :
    (ofSource 2 ⟨[[0x61, 0xE2], [0x82, 0x0D], [0x0A, 0x62]], none⟩).texts [0xFF] =
        (ofSource 2 (.ofBytes [0x61, 0xE2, 0x82, 0x0D, 0x0A])).texts [0xFF] ++
          (ofSource 2 (.ofBytes [0x62])).texts [0xFF] ∧
      ['\n'].intercalate
          (((ofSource 2 ⟨[[0xC3], [0xA4, 0x0A, 0x0A]], none⟩).texts []).map String.toList) ++
        ['\n'] = "ä\n\n".toList :=
  ⟨(texts_decoded _ _ _).2.2.2.1 [0x61, 0xE2, 0x82, 0x0D] [0x62] rfl,
    (texts_decoded _ _ _).2.2.2.2 "ä\n\n" (by decide) (by decide)⟩

end Reader

end LineScript
