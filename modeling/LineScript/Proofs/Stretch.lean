import LineScript.Proofs.Utf8

/-!
# Characters and stretches

What decoding finds in bytes can be said of the bytes alone, without the state of a decoder.
Where the bytes of a character stand, that character is found. Anywhere else stands a stretch:
a longest begin of the bytes of some character, or a single byte with which no character
begins. Main result: these rules cut any bytes in at most one way.
-/

namespace LineScript

namespace Utf8

/-- The bytes of a character are decoded to it. -/
theorem run_encodeChar_self (c : Char) : run .nothing (String.utf8EncodeChar c) = [.char c] := by
  have hrun := run_encodeChar c []
  rwa [List.append_nil] at hrun

/-- No character has bytes with which those of another begin. -/
theorem eq_of_encodeChar_begins {c d : Char}
    (h : String.utf8EncodeChar c <+: String.utf8EncodeChar d) : c = d := by
  obtain ⟨rest, hrest⟩ := h
  have hrun := run_encodeChar_self d
  rw [← hrest, run_encodeChar] at hrun
  exact Piece.char.inj (List.cons.inj hrun).1

/-- Bytes begin with at most one character. -/
theorem encodeChar_append_inj {c d : Char} {rest rest' : Bytes}
    (h : String.utf8EncodeChar c ++ rest = String.utf8EncodeChar d ++ rest') :
    c = d ∧ rest = rest' := by
  have hc : String.utf8EncodeChar c <+: String.utf8EncodeChar d ++ rest' := ⟨rest, h⟩
  have hd : String.utf8EncodeChar d <+: String.utf8EncodeChar d ++ rest' := ⟨rest', rfl⟩
  have hcd : c = d := by
    rcases List.prefix_or_prefix_of_prefix hc hd with hprefix | hprefix
    · exact eq_of_encodeChar_begins hprefix
    · exact (eq_of_encodeChar_begins hprefix).symm
  rw [hcd] at h
  exact ⟨hcd, List.append_cancel_left h⟩

/-- A character has bytes. -/
theorem encodeChar_ne_nil (c : Char) : String.utf8EncodeChar c ≠ [] := by
  rw [Ne, ← List.length_eq_zero_iff, String.length_utf8EncodeChar]
  exact Nat.pos_iff_ne_zero.mp c.utf8Size_pos

/-- Whether the bytes of some character begin like this. -/
def Begins (bytes : Bytes) : Prop := ∃ c, bytes <+: String.utf8EncodeChar c

/-- Whether bytes are a stretch that belongs to no character, with these bytes behind them. -/
structure IsStretch (bad rest : Bytes) : Prop where
  /-- The bytes of a character do not stand here. -/
  undecodable : ∀ c, ¬ String.utf8EncodeChar c <+: bad ++ rest
  /-- A character begins like this, but none goes on with the next byte; or it is one byte, with
  which no character begins. -/
  longest : (bad ≠ [] ∧ Begins bad ∧ ∃ b later, rest = b :: later ∧ ¬ Begins (bad ++ [b])) ∨
    ∃ b, bad = [b] ∧ ¬ Begins [b]

/-- A byte with which no character begins is a stretch. -/
theorem IsStretch.of_single {b : UInt8} (h : ¬ Begins [b]) (rest : Bytes) :
    IsStretch [b] rest := by
  refine ⟨fun c hc => h ⟨c, ?_⟩, .inr ⟨b, rfl, h⟩⟩
  cases hbytes : String.utf8EncodeChar c with
  | nil => exact absurd hbytes (encodeChar_ne_nil c)
  | cons first more =>
    rw [hbytes] at hc
    obtain ⟨rfl, _⟩ := List.cons_prefix_cons.mp hc
    exact List.prefix_append [first] more

/-- Whether bytes are a character that is cut off by the end. -/
structure IsCutOff (bad : Bytes) : Prop where
  /-- There is something. -/
  nonempty : bad ≠ []
  /-- A character begins like this. -/
  begins : Begins bad
  /-- The bytes of a character do not stand here. -/
  undecodable : ∀ c, ¬ String.utf8EncodeChar c <+: bad

/-- How bytes are cut into characters and stretches. -/
inductive CutInto : Bytes → List Piece → Prop
  /-- Nothing is cut into nothing. -/
  | nil : CutInto [] []
  /-- The bytes of a character come first. -/
  | char (c : Char) {rest pieces} (later : CutInto rest pieces) :
      CutInto (String.utf8EncodeChar c ++ rest) (.char c :: pieces)
  /-- A stretch comes first. -/
  | invalid {bad rest pieces} (stretch : IsStretch bad rest) (later : CutInto rest pieces) :
      CutInto (bad ++ rest) (.invalid bad.length :: pieces)
  /-- A character is cut off. -/
  | incomplete {bad} (cutOff : IsCutOff bad) : CutInto bad [.incomplete bad.length]

/-- What begins like the bytes of a character does so from its own begin on. -/
theorem Begins.of_append {bytes more : Bytes} (h : Begins (bytes ++ more)) : Begins bytes := by
  obtain ⟨c, hc⟩ := h
  exact ⟨c, (List.prefix_append bytes more).trans hc⟩

/-- A stretch is not empty. -/
theorem IsStretch.ne_nil {bad rest : Bytes} (h : IsStretch bad rest) : bad ≠ [] := by
  rcases h.longest with ⟨hne, _⟩ | ⟨b, rfl, _⟩
  · exact hne
  · exact List.cons_ne_nil b []

/-- No character begins with a stretch and the byte behind it. -/
theorem IsStretch.not_begins {bad later : Bytes} {b : UInt8} (h : IsStretch bad (b :: later)) :
    ¬ Begins (bad ++ [b]) := by
  rcases h.longest with ⟨_, _, b', later', hrest, hnot⟩ | ⟨b', rfl, hnot⟩
  · rwa [(List.cons.inj hrest).1]
  · exact fun hbegins => hnot hbegins.of_append

/-- A stretch is no longer than another one at the same place. -/
theorem IsStretch.eq_nil {bad more rest : Bytes} (h : IsStretch bad (more ++ rest))
    (hlong : IsStretch (bad ++ more) rest) : more = [] := by
  cases more with
  | nil => rfl
  | cons b more =>
    rcases hlong.longest with ⟨_, hbegins, _⟩ | ⟨b', hsingle, _⟩
    · rw [← List.singleton_append, ← List.append_assoc] at hbegins
      exact absurd hbegins.of_append h.not_begins
    · have hlength := congrArg List.length hsingle
      have hpositive : 0 < bad.length := List.length_pos_iff.mpr h.ne_nil
      simp only [List.length_append, List.length_cons, List.length_nil] at hlength
      omega

/-- Two stretches at one place are the same. -/
theorem IsStretch.eq {bad bad' rest rest' : Bytes} (h : IsStretch bad rest)
    (h' : IsStretch bad' rest') (heq : bad ++ rest = bad' ++ rest') :
    bad = bad' ∧ rest = rest' := by
  rcases List.append_eq_append_iff.mp heq with ⟨more, rfl, rfl⟩ | ⟨more, rfl, rfl⟩
  · rw [h.eq_nil h', List.append_nil, List.nil_append]
    exact ⟨rfl, rfl⟩
  · rw [h'.eq_nil h, List.append_nil, List.nil_append]
    exact ⟨rfl, rfl⟩

/-- A stretch is not cut off by the end. -/
theorem IsStretch.not_cutOff {bad rest : Bytes} (h : IsStretch bad rest) :
    ¬ IsCutOff (bad ++ rest) := by
  intro hcut
  rcases h.longest with ⟨_, _, b, later, rfl, _⟩ | ⟨b, rfl, hnot⟩
  · have hbegins := hcut.begins
    rw [← List.singleton_append, ← List.append_assoc] at hbegins
    exact h.not_begins hbegins.of_append
  · exact hnot hcut.begins.of_append

/-- The rules leave no choice. -/
theorem CutInto.unique {bytes : Bytes} {pieces pieces' : List Piece} (h : CutInto bytes pieces)
    (h' : CutInto bytes pieces') : pieces = pieces' := by
  induction h generalizing pieces' with
  | nil =>
    generalize hbytes : ([] : Bytes) = bytes at h'
    cases h' with
    | nil => rfl
    | char c => exact absurd (List.append_eq_nil_iff.mp hbytes.symm).1 (encodeChar_ne_nil c)
    | invalid stretch => exact absurd (List.append_eq_nil_iff.mp hbytes.symm).1 stretch.ne_nil
    | incomplete cutOff => exact absurd hbytes.symm cutOff.nonempty
  | @char c rest pieces later ih =>
    generalize hbytes : String.utf8EncodeChar c ++ rest = bytes at h'
    cases h' with
    | nil => exact absurd (List.append_eq_nil_iff.mp hbytes).1 (encodeChar_ne_nil c)
    | char d later' =>
      obtain ⟨rfl, rfl⟩ := encodeChar_append_inj hbytes
      rw [ih later']
    | invalid stretch => exact absurd ⟨rest, hbytes⟩ (stretch.undecodable c)
    | incomplete cutOff => exact absurd ⟨rest, hbytes⟩ (cutOff.undecodable c)
  | @invalid bad rest pieces stretch later ih =>
    generalize hbytes : bad ++ rest = bytes at h'
    cases h' with
    | nil => exact absurd (List.append_eq_nil_iff.mp hbytes).1 stretch.ne_nil
    | char d later' => exact absurd ⟨_, hbytes.symm⟩ (stretch.undecodable d)
    | invalid stretch' later' =>
      obtain ⟨rfl, rfl⟩ := stretch.eq stretch' hbytes
      rw [ih later']
    | incomplete cutOff => exact absurd (hbytes ▸ cutOff) stretch.not_cutOff
  | @incomplete bad cutOff =>
    generalize hbytes : bad = bytes at h'
    cases h' with
    | nil => exact absurd hbytes cutOff.nonempty
    | char d later' => exact absurd ⟨_, hbytes.symm⟩ (cutOff.undecodable d)
    | invalid stretch' => exact absurd (hbytes ▸ cutOff) stretch'.not_cutOff
    | incomplete => rfl

end Utf8

end LineScript
