import LineScript.Proofs.Decoding
import LineScript.Proofs.Reading

/-!
# Where a newline in a line comes from

A script is cut at its newlines before anything else is done with it. The decoder gives a
newline for the byte of a newline only, trimming takes characters away, and the placeholder is
replaced by the directory. Main result: a line that is ready for the child has a newline only
if the directory of the script has one.
-/

namespace LineScript

namespace Utf8

/-- A newline is decoded from the byte of a newline only. -/
theorem newline_mem_of_decodeString {bytes : Bytes} {text : String}
    (h : decodeString bytes = .ok text) (hmem : '\n' ∈ text.toList) : newline ∈ bytes := by
  have hnewline : newline ∈ String.utf8EncodeChar '\n' := by decide
  rw [decodeString_eq_ok_iff.mp h, ofString_eq_encode]
  exact List.mem_flatMap.mpr ⟨'\n', hmem, hnewline⟩

end Utf8

/-- What stands after the last complete line has no newline. -/
theorem newline_not_mem_splitLines (bytes : Bytes) : newline ∉ (splitLines bytes).2 := by
  induction bytes with
  | nil => exact List.not_mem_nil
  | cons b rest ih =>
    by_cases hb : b = newline
    · rw [splitLines, if_pos hb]
      exact ih
    · rw [splitLines, if_neg hb]
      cases hlines : (splitLines rest).1 with
      | nil => exact List.not_mem_cons_of_ne_of_not_mem (Ne.symm hb) ih
      | cons first lines => exact ih

/-- A line without its terminator has no newline. -/
theorem newline_not_mem_delivered {bytes : Bytes} {failure : Option Fault} {line : Bytes}
    (h : line ∈ deliveredLines bytes failure) : newline ∉ dropTerminator line := by
  rw [deliveredLines, List.mem_append] at h
  rcases h with hcomplete | hlast
  · obtain ⟨body, hbody, rfl⟩ := isTerminated_of_mem_splitLines hcomplete
    rw [dropTerminator_append]
    split
    · exact fun hmem => hbody ((List.dropLast_subset body) hmem)
    · exact hbody
  · split at hlast
    · cases hlast
    · have hrest : newline ∉ line := by
        rw [List.mem_singleton.mp hlast]
        exact newline_not_mem_splitLines bytes
      rwa [dropTerminator_of_not_mem hrest]

/-- Trimming adds no character. -/
theorem Text.mem_of_mem_trim {c : Char} {text : List Char} (h : c ∈ trim text) : c ∈ text := by
  rw [trim, trimEnd, List.mem_reverse] at h
  have hstart : c ∈ trimStart text := List.mem_reverse.mp ((List.dropWhile_suffix _).subset h)
  exact (List.dropWhile_suffix _).subset hstart

namespace Script

/-- A character of a text whose placeholders are replaced is one of the text or of the
directory. -/
theorem mem_substitute {directory text : List Char} {c : Char}
    (h : c ∈ substitute directory text) : c ∈ directory ∨ c ∈ text := by
  induction text using substitute.induct with
  | case1 rest ih =>
    rw [substitute, List.mem_append] at h
    rcases h with hdirectory | hrest
    · exact .inl hdirectory
    · exact (ih hrest).imp_right fun hmem => List.mem_append_right ['$', 'S', 'D'] hmem
  | case2 first rest hnot ih =>
    rw [substitute, List.mem_cons] at h
    · rcases h with hfirst | hrest
      · exact .inr (hfirst ▸ List.mem_cons_self)
      · exact (ih hrest).imp_right (List.mem_cons_of_mem first)
    · exact hnot
  | case3 => exact .inr h

/-- Lines that are made ready have newlines only from the directory, if there are none before. -/
theorem newline_of_mem_prepareLines {baseDir : String} {failure : Option Fault} {number : Nat}
    {raws : List Bytes} (hraws : ∀ raw ∈ raws, newline ∉ raw) {line : Line}
    (h : line ∈ (prepareLines baseDir failure number raws).1) (hmem : '\n' ∈ line.text.toList) :
    '\n' ∈ baseDir.toList := by
  induction raws generalizing number with
  | nil => cases h
  | cons raw rest ih =>
    cases hdecode : Utf8.decodeString raw with
    | error malformed =>
      rw [prepareLines_malformed rest hdecode] at h
      cases h
    | ok text =>
      rw [prepareLines_cons rest hdecode] at h
      rcases List.mem_cons.mp h with rfl | hlater
      · rw [prepareLine, String.toList_ofList] at hmem
        rcases mem_substitute hmem with hdirectory | htext
        · exact hdirectory
        · have hraw : newline ∈ raw :=
            Utf8.newline_mem_of_decodeString hdecode (Text.mem_of_mem_trim htext)
          exact absurd hraw (hraws raw List.mem_cons_self)
      · exact ih (fun other hother => hraws other (List.mem_cons_of_mem raw hother)) hlater

/-- A line that was read has a newline only if the directory has one. -/
theorem newline_of_mem_read {baseDir : String} {source : Source} {line : Line}
    (h : line ∈ (read baseDir source).lines) (hmem : '\n' ∈ line.text.toList) :
    '\n' ∈ baseDir.toList := by
  rw [read_eq] at h
  refine newline_of_mem_prepareLines (fun raw hraw => ?_) h hmem
  obtain ⟨whole, hwhole, rfl⟩ := List.mem_map.mp hraw
  exact newline_not_mem_delivered hwhole

end Script

end LineScript
