import LineScript.Proofs.Decoding

/-!
# Boundaries in encoded bytes

The byte of an ASCII character belongs to no other character, and no stretch goes on with it.
Main result: where such a byte stands the bytes can be cut, and what stands before and after it
is decoded as if it stood alone.
-/

namespace LineScript

namespace Utf8

/-- A character that is one byte, from the ASCII range. -/
structure IsAscii (c : Char) (b : UInt8) : Prop where
  /-- The byte is all of the character. -/
  bytes : String.utf8EncodeChar c = [b]
  /-- The byte is below 0x80. -/
  small : b.toNat < 0x80

/-- A newline is one byte. -/
theorem isAscii_newline : IsAscii '\n' newline := ⟨by decide, by decide⟩

/-- A carriage return is one byte. -/
theorem isAscii_carriageReturn : IsAscii '\r' carriageReturn := ⟨by decide, by decide⟩

namespace IsAscii

variable {c : Char} {b : UInt8}

/-- The byte of an ASCII character belongs to no other character. -/
theorem eq_of_mem (h : IsAscii c b) {d : Char} (hmem : b ∈ String.utf8EncodeChar d) : d = c := by
  have hown : b ∈ String.utf8EncodeChar c := h.bytes ▸ List.mem_singleton_self b
  rw [mem_encodeChar h.small hmem, mem_encodeChar h.small hown]

/-- An ASCII character is not the one that stands for a stretch. -/
theorem ne_shown (h : IsAscii c b) : c ≠ Char.ofNat 0xFFFD := by
  rintro rfl
  have hlength := congrArg List.length h.bytes
  rw [String.length_utf8EncodeChar, List.length_singleton] at hlength
  exact absurd hlength (by decide)

/-- No character begins with something and the byte of an ASCII character behind it. -/
theorem not_begins (h : IsAscii c b) {bytes : Bytes} (hne : bytes ≠ []) :
    ¬ Begins (bytes ++ [b]) := by
  rintro ⟨d, hd⟩
  have hmem : b ∈ String.utf8EncodeChar d := hd.subset (List.mem_append_right _ List.mem_cons_self)
  have hlength := hd.length_le
  rw [h.eq_of_mem hmem, h.bytes, List.length_append, List.length_singleton] at hlength
  have hpositive : 0 < bytes.length := List.length_pos_iff.mpr hne
  omega

/-- No character reaches over the byte of an ASCII character. -/
theorem not_prefix (h : IsAscii c b) {bytes : Bytes} (hne : bytes ≠ [])
    (hnone : ∀ d, ¬ String.utf8EncodeChar d <+: bytes) (after : Bytes) (d : Char) :
    ¬ String.utf8EncodeChar d <+: bytes ++ b :: after := by
  intro hd
  have hown : bytes <+: bytes ++ b :: after := List.prefix_append bytes _
  rcases List.prefix_or_prefix_of_prefix hd hown with hshort | ⟨more, hmore⟩
  · exact hnone d hshort
  · rw [← hmore, List.prefix_append_right_inj] at hd
    cases more with
    | nil =>
      rw [List.append_nil] at hmore
      exact hnone d (hmore ▸ List.prefix_rfl)
    | cons b' more =>
      obtain ⟨rfl, _⟩ := List.cons_prefix_cons.mp hd
      exact h.not_begins hne ⟨d, more, by rw [List.append_assoc, List.singleton_append, hmore]⟩

/-- A stretch stays one with the byte of an ASCII character after what follows it. -/
theorem isStretch (h : IsAscii c b) {bad rest : Bytes} (hbad : IsStretch bad rest)
    (after : Bytes) : IsStretch bad (rest ++ b :: after) := by
  refine ⟨fun d hd => ?_, ?_⟩
  · rw [← List.append_assoc] at hd
    exact h.not_prefix (List.append_ne_nil_of_left_ne_nil hbad.ne_nil rest) hbad.undecodable
      after d hd
  · rcases hbad.longest with ⟨hne, hbegins, next, later, rfl, hnot⟩ | hsingle
    · exact .inl ⟨hne, hbegins, next, later ++ b :: after, rfl, hnot⟩
    · exact .inr hsingle

/-- A character that was cut off is a stretch before the byte of an ASCII character. -/
theorem isStretch_of_cutOff (h : IsAscii c b) {bad : Bytes} (hbad : IsCutOff bad)
    (after : Bytes) : IsStretch bad (b :: after) :=
  ⟨h.not_prefix hbad.nonempty hbad.undecodable after,
    .inl ⟨hbad.nonempty, hbad.begins, b, after, rfl, h.not_begins hbad.nonempty⟩⟩

/-- The bytes before and after an ASCII character are decoded on their own. -/
theorem cutInto_append (h : IsAscii c b) {before after : Bytes} {pieces later : List Piece}
    (hbefore : CutInto before pieces) (hafter : CutInto after later) :
    ∃ all, CutInto (before ++ b :: after) all ∧
      all.map Piece.shown = pieces.map Piece.shown ++ c :: later.map Piece.shown := by
  induction hbefore with
  | nil =>
    refine ⟨.char c :: later, ?_, rfl⟩
    have hcut := CutInto.char c hafter
    rwa [h.bytes, List.singleton_append] at hcut
  | char d _ ih =>
    obtain ⟨all, hall, hshown⟩ := ih
    refine ⟨.char d :: all, ?_, congrArg (d :: ·) hshown⟩
    rw [List.append_assoc]
    exact .char d hall
  | @invalid bad _ _ stretch _ ih =>
    obtain ⟨all, hall, hshown⟩ := ih
    refine ⟨.invalid bad.length :: all, ?_, congrArg (Char.ofNat 0xFFFD :: ·) hshown⟩
    rw [List.append_assoc]
    exact .invalid (h.isStretch stretch after) hall
  | @incomplete bad cutOff =>
    refine ⟨.invalid bad.length :: .char c :: later, ?_, rfl⟩
    have hcut := CutInto.char c hafter
    rw [h.bytes, List.singleton_append] at hcut
    exact .invalid (h.isStretch_of_cutOff cutOff after) hcut

/-- An ASCII character is a boundary: what stands before and after it is decoded on its own. -/
theorem decodeLossy_append (h : IsAscii c b) (before after : Bytes) :
    decodeLossy (before ++ b :: after) = decodeLossy before ++ c :: decodeLossy after := by
  obtain ⟨all, hall, hshown⟩ := h.cutInto_append (cutInto_run before).1 (cutInto_run after).1
  rw [decodeLossy, ← cutInto_iff.mp hall, hshown]
  rfl

/-- An ASCII character is decoded from its byte only. -/
theorem mem_of_cutInto (h : IsAscii c b) {bytes : Bytes} {pieces : List Piece}
    (hcut : CutInto bytes pieces) (hmem : c ∈ pieces.map Piece.shown) : b ∈ bytes := by
  induction hcut with
  | nil => cases hmem
  | char d _ ih =>
    rcases List.mem_cons.mp hmem with rfl | hlater
    · exact List.mem_append_left _ (h.bytes ▸ List.mem_cons_self)
    · exact List.mem_append_right _ (ih hlater)
  | invalid _ _ ih =>
    rcases List.mem_cons.mp hmem with hshown | hlater
    · exact absurd hshown h.ne_shown
    · exact List.mem_append_right _ (ih hlater)
  | incomplete => exact absurd (List.mem_singleton.mp hmem) h.ne_shown

/-- What ends in an ASCII character was decoded from what ends in its byte. -/
theorem getLast?_of_cutInto (h : IsAscii c b) {bytes : Bytes} {pieces : List Piece}
    (hcut : CutInto bytes pieces) (hlast : (pieces.map Piece.shown).getLast? = some c) :
    bytes.getLast? = some b := by
  have hnil {rest : Bytes} (hrest : CutInto rest []) : rest = [] := by
    generalize hpieces : ([] : List Piece) = pieces at hrest
    cases hrest with
    | nil => rfl
    | _ => cases hpieces
  induction hcut with
  | nil => cases hlast
  | @char d rest pieces later ih =>
    cases pieces with
    | nil =>
      rw [hnil later, List.append_nil]
      have hd : d = c := Option.some.inj hlast
      rw [hd, h.bytes]
      rfl
    | cons piece pieces =>
      rw [List.map_cons, List.map_cons, List.getLast?_cons_cons] at hlast
      rw [List.getLast?_append, ih hlast, Option.some_or]
  | @invalid bad rest pieces _ later ih =>
    cases pieces with
    | nil => exact absurd (Option.some.inj hlast).symm h.ne_shown
    | cons piece pieces =>
      rw [List.map_cons, List.map_cons, List.getLast?_cons_cons] at hlast
      rw [List.getLast?_append, ih hlast, Option.some_or]
  | incomplete => exact absurd (Option.some.inj hlast).symm h.ne_shown

/-- A text that was decoded ends in an ASCII character exactly if the bytes end in its byte. -/
theorem getLast?_decodeLossy (h : IsAscii c b) (bytes : Bytes) :
    (decodeLossy bytes).getLast? = some c ↔ bytes.getLast? = some b := by
  refine ⟨h.getLast?_of_cutInto (cutInto_run bytes).1, fun hlast => ?_⟩
  obtain ⟨before, rfl⟩ := List.getLast?_eq_some_iff.mp hlast
  rw [h.decodeLossy_append before []]
  exact List.getLast?_concat

end IsAscii

end Utf8

end LineScript
