import LineScript.Text.Line

/-!
# Bytes that encode a text

The decoder reads one byte at a time. The bytes of a character lead it from between
characters back to there, and give that character and nothing else; the bounds on a second
byte leave all characters in. Main result: the bytes of a text decode to the text, and the
byte that ends a line, and the one that may stand before it, come from their own characters
only.
-/

namespace LineScript

namespace Utf8

/-- The value of a byte. -/
theorem toNat_byte {n : Nat} (h : n < 256) : (UInt8.ofNat n).toNat = n := by
  simp only [UInt8.toNat_ofNat', Nat.reducePow]
  omega

/-- Bytes are compared by their values. -/
theorem byte_lt_iff {n : Nat} (h : n < 256) (b : UInt8) : UInt8.ofNat n < b ↔ n < b.toNat := by
  rw [UInt8.lt_iff_toNat_lt, toNat_byte h]

/-- A byte is not below one of no greater value. -/
theorem byte_not_lt {n : Nat} (h : n < 256) (b : UInt8) (hb : b.toNat ≤ n) :
    ¬ UInt8.ofNat n < b := by
  rw [byte_lt_iff h]
  exact Nat.not_lt.mpr hb

/-- Bytes are the same if their values are. -/
theorem byte_eq_iff {n : Nat} (h : n < 256) (b : UInt8) : UInt8.ofNat n = b ↔ n = b.toNat := by
  rw [← UInt8.toNat_inj, toNat_byte h]

/-- A byte within the bounds belongs to the open character. -/
theorem byte_within {n : Nat} (h : n < 256) {low high : UInt8} (hlow : low.toNat ≤ n)
    (hhigh : n ≤ high.toNat) : low ≤ UInt8.ofNat n ∧ UInt8.ofNat n ≤ high := by
  rw [UInt8.le_iff_toNat_le, UInt8.le_iff_toNat_le, toNat_byte h]
  exact ⟨hlow, hhigh⟩

/-- A byte within the bounds goes on with the open character. -/
theorem run_continue {taken missing bits n : Nat} {low high : UInt8} (rest : Bytes)
    (hlow : low.toNat ≤ n) (hhigh : n ≤ high.toNat) (hn : n < 256) :
    run (.inside taken (missing + 1) low high bits) (UInt8.ofNat n :: rest) =
      run (.inside (taken + 1) missing 0x80 0xBF (bits * 64 + (n - 0x80))) rest := by
  rw [run, step, if_pos (byte_within hn hlow hhigh), toNat_byte hn]
  rfl

/-- The last byte within the bounds completes the open character. -/
theorem run_complete {taken bits n : Nat} {low high : UInt8} (rest : Bytes)
    (hlow : low.toNat ≤ n) (hhigh : n ≤ high.toNat) (hn : n < 256) :
    run (.inside taken 0 low high bits) (UInt8.ofNat n :: rest) =
      .char (Char.ofNat (bits * 64 + (n - 0x80))) :: run .nothing rest := by
  rw [run, step, if_pos (byte_within hn hlow hhigh), toNat_byte hn]
  rfl

/-- A byte below 0x80 is a character. -/
theorem first_one {n : Nat} (h : n < 0x80) :
    first (UInt8.ofNat n) = ([.char (Char.ofNat n)], .nothing) := by
  have hn : n < 256 := by omega
  rw [first, if_pos ((byte_lt_iff hn 0x80).mpr h), toNat_byte hn]

/-- A byte from 0xC2 on begins a character of two bytes. -/
theorem first_two {n : Nat} (hlow : 0xC2 ≤ n) (hhigh : n < 0xE0) :
    first (UInt8.ofNat n) = ([], .inside 1 0 0x80 0xBF (n - 0xC0)) := by
  have hn : n < 256 := by omega
  rw [first, if_neg (byte_not_lt hn 0x80 (Nat.le_trans (by decide) hlow)),
    if_neg (byte_not_lt hn 0xC2 hlow), if_pos ((byte_lt_iff hn 0xE0).mpr hhigh), toNat_byte hn]

/-- A byte from 0xE0 on begins a character of three bytes. -/
theorem first_three {n : Nat} (hlow : 0xE0 ≤ n) (hhigh : n < 0xF0) :
    first (UInt8.ofNat n) =
      ([], .inside 1 1 (if n = 0xE0 then 0xA0 else 0x80) (if n = 0xED then 0x9F else 0xBF)
        (n - 0xE0)) := by
  have hn : n < 256 := by omega
  have hfirst : (UInt8.ofNat n = 0xE0) = (n = 0xE0) := propext (byte_eq_iff hn 0xE0)
  have hlast : (UInt8.ofNat n = 0xED) = (n = 0xED) := propext (byte_eq_iff hn 0xED)
  rw [first, if_neg (byte_not_lt hn 0x80 (Nat.le_trans (by decide) hlow)),
    if_neg (byte_not_lt hn 0xC2 (Nat.le_trans (by decide) hlow)), if_neg (byte_not_lt hn 0xE0 hlow),
    if_pos ((byte_lt_iff hn 0xF0).mpr hhigh), toNat_byte hn]
  simp only [hfirst, hlast]

/-- A byte from 0xF0 on begins a character of four bytes. -/
theorem first_four {n : Nat} (hlow : 0xF0 ≤ n) (hhigh : n < 0xF5) :
    first (UInt8.ofNat n) =
      ([], .inside 1 2 (if n = 0xF0 then 0x90 else 0x80) (if n = 0xF4 then 0x8F else 0xBF)
        (n - 0xF0)) := by
  have hn : n < 256 := by omega
  have hfirst : (UInt8.ofNat n = 0xF0) = (n = 0xF0) := propext (byte_eq_iff hn 0xF0)
  have hlast : (UInt8.ofNat n = 0xF4) = (n = 0xF4) := propext (byte_eq_iff hn 0xF4)
  rw [first, if_neg (byte_not_lt hn 0x80 (Nat.le_trans (by decide) hlow)),
    if_neg (byte_not_lt hn 0xC2 (Nat.le_trans (by decide) hlow)),
    if_neg (byte_not_lt hn 0xE0 (Nat.le_trans (by decide) hlow)), if_neg (byte_not_lt hn 0xF0 hlow),
    if_pos ((byte_lt_iff hn 0xF5).mpr hhigh), toNat_byte hn]
  simp only [hfirst, hlast]

/-- The bytes of a character give that character, and leave the decoder between
characters. -/
theorem run_encodeChar (c : Char) (rest : Bytes) :
    run .nothing (String.utf8EncodeChar c ++ rest) = .char c :: run .nothing rest := by
  have hc : Char.ofNat c.val.toNat = c := Char.ofNat_toNat c
  have hvalid : c.val.toNat < 0xD800 ∨ 0xDFFF < c.val.toNat ∧ c.val.toNat < 0x110000 := c.valid
  generalize hv : c.val.toNat = v at hc hvalid
  have hstep (b : UInt8) (state : Open) (later : Bytes) (h : first b = ([], state)) :
      run .nothing (b :: later) = run state later := by
    rw [run, step, h]
    rfl
  simp only [String.utf8EncodeChar, hv]
  by_cases hone : v ≤ 127
  · rw [if_pos hone, List.singleton_append, run, step, first_one (by omega), hc]
    rfl
  · rw [if_neg hone]
    by_cases htwo : v ≤ 2047
    · rw [if_pos htwo, List.cons_append, List.cons_append, List.nil_append,
        hstep _ _ _ (first_two (by omega) (by omega)),
        run_complete _ (by change 128 ≤ _; omega) (by change _ ≤ 191; omega) (by omega)]
      have hbits : (v / 64 % 32 + 192 - 192) * 64 + (v % 64 + 128 - 128) = v := by omega
      rw [hbits, hc]
    · rw [if_neg htwo]
      by_cases hthree : v ≤ 65535
      · -- The second byte after 0xE0 or 0xED is bounded more closely.
        have hlow : (if v / 4096 % 16 + 224 = 0xE0 then (0xA0 : UInt8) else 0x80).toNat ≤
            v / 64 % 64 + 128 := by
          split
          · change 160 ≤ _
            omega
          · change 128 ≤ _
            omega
        have hhigh : v / 64 % 64 + 128 ≤
            (if v / 4096 % 16 + 224 = 0xED then (0x9F : UInt8) else 0xBF).toNat := by
          split
          · change _ ≤ 159
            omega
          · change _ ≤ 191
            omega
        rw [if_pos hthree, List.cons_append, List.cons_append, List.cons_append, List.nil_append,
          hstep _ _ _ (first_three (by omega) (by omega)),
          run_continue _ hlow hhigh (by omega),
          run_complete _ (by change 128 ≤ _; omega) (by change _ ≤ 191; omega) (by omega)]
        have hbits : ((v / 4096 % 16 + 224 - 224) * 64 + (v / 64 % 64 + 128 - 128)) * 64 +
            (v % 64 + 128 - 128) = v := by omega
        rw [hbits, hc]
      · have hlow : (if v / 262144 % 8 + 240 = 0xF0 then (0x90 : UInt8) else 0x80).toNat ≤
            v / 4096 % 64 + 128 := by
          split
          · change 144 ≤ _
            omega
          · change 128 ≤ _
            omega
        have hhigh : v / 4096 % 64 + 128 ≤
            (if v / 262144 % 8 + 240 = 0xF4 then (0x8F : UInt8) else 0xBF).toNat := by
          split
          · change _ ≤ 143
            omega
          · change _ ≤ 191
            omega
        rw [if_neg hthree, List.cons_append, List.cons_append, List.cons_append, List.cons_append,
          List.nil_append, hstep _ _ _ (first_four (by omega) (by omega)),
          run_continue _ hlow hhigh (by omega),
          run_continue _ (by change 128 ≤ _; omega) (by change _ ≤ 191; omega) (by omega),
          run_complete _ (by change 128 ≤ _; omega) (by change _ ≤ 191; omega) (by omega)]
        have hbits : (((v / 262144 % 8 + 240 - 240) * 64 + (v / 4096 % 64 + 128 - 128)) * 64 +
            (v / 64 % 64 + 128 - 128)) * 64 + (v % 64 + 128 - 128) = v := by omega
        rw [hbits, hc]

/-- The pieces of an encoded text are its characters. -/
theorem pieces_encode (text : List Char) : pieces (encode text) = text.map .char := by
  induction text with
  | nil => rfl
  | cons c rest ih =>
    have hrest : run .nothing (encode rest) = rest.map .char := ih
    rw [pieces, encode, List.flatMap_cons, run_encodeChar]
    exact congrArg (.char c :: ·) hrest

/-- Characters are gathered as they are. -/
theorem gather_chars (index : Nat) (text : List Char) :
    gather index (text.map .char) = .ok text := by
  induction text generalizing index with
  | nil => rfl
  | cons c rest ih =>
    rw [List.map_cons, gather, ih]
    rfl

/-- An encoded text is decoded to itself. -/
theorem decodeString_encode (text : List Char) :
    decodeString (encode text) = .ok (String.ofList text) := by
  rw [decodeString, decode, pieces_encode, gather_chars]
  rfl

/-- Texts are encoded one after the other. -/
theorem encode_append (first second : List Char) :
    encode (first ++ second) = encode first ++ encode second := List.flatMap_append

/-- The bytes of a character below 0x80 are that byte, and those of any other character are
not below 0x80. -/
theorem encodeChar_cases (c : Char) :
    (c.toNat < 0x80 ∧ String.utf8EncodeChar c = [UInt8.ofNat c.toNat]) ∨
      ∀ b ∈ String.utf8EncodeChar c, 0x80 ≤ b.toNat := by
  by_cases hone : c.val.toNat ≤ 127
  · refine .inl ⟨Nat.lt_succ_of_le hone, ?_⟩
    simp only [String.utf8EncodeChar, if_pos hone]
    rfl
  · right
    have hhigh (n : Nat) (hn : n < 128) : 128 ≤ (UInt8.ofNat (n + 128)).toNat := by
      rw [toNat_byte (by omega)]
      omega
    have hlead (n : Nat) (hlow : 192 ≤ n) (hn : n < 256) : 128 ≤ (UInt8.ofNat n).toNat := by
      rw [toNat_byte hn]
      omega
    intro b hb
    simp only [String.utf8EncodeChar, if_neg hone] at hb
    split at hb
    · simp only [List.mem_cons, List.not_mem_nil, or_false] at hb
      rcases hb with rfl | rfl
      · exact hlead _ (by omega) (by omega)
      · exact hhigh _ (by omega)
    · split at hb
      · simp only [List.mem_cons, List.not_mem_nil, or_false] at hb
        rcases hb with rfl | rfl | rfl
        · exact hlead _ (by omega) (by omega)
        · exact hhigh _ (by omega)
        · exact hhigh _ (by omega)
      · simp only [List.mem_cons, List.not_mem_nil, or_false] at hb
        rcases hb with rfl | rfl | rfl | rfl
        · exact hlead _ (by omega) (by omega)
        · exact hhigh _ (by omega)
        · exact hhigh _ (by omega)
        · exact hhigh _ (by omega)

/-- A byte below 0x80 comes from its own character only. -/
theorem mem_encodeChar {b : UInt8} {c : Char} (hb : b.toNat < 0x80)
    (h : b ∈ String.utf8EncodeChar c) : c = Char.ofNat b.toNat := by
  rcases encodeChar_cases c with ⟨hc, hone⟩ | hhigh
  · rw [hone, List.mem_singleton] at h
    rw [h, toNat_byte (by omega), Char.ofNat_toNat]
  · have hle := hhigh b h
    omega

/-- A text without newlines is encoded without the byte that ends a line. -/
theorem newline_not_mem_encode {text : List Char} (h : '\n' ∉ text) : newline ∉ encode text := by
  intro hmem
  obtain ⟨c, hc, hb⟩ := List.mem_flatMap.mp hmem
  have heq : c = '\n' := mem_encodeChar (by decide) hb
  exact h (heq ▸ hc)

end Utf8

/-- A line without a newline has no terminator. -/
theorem dropTerminator_of_not_mem {line : Bytes} (h : newline ∉ line) :
    dropTerminator line = line := by
  rcases List.eq_nil_or_concat line with rfl | ⟨before, b, rfl⟩
  · rfl
  · rw [List.concat_eq_append] at h ⊢
    have hb : b ≠ newline := fun heq => h (heq ▸ List.mem_concat_self)
    simp only [dropTerminator, List.reverse_append, List.reverse_singleton, List.singleton_append,
      if_neg hb]

/-- A terminator is a newline and, if the line ends in one, a carriage return. -/
theorem dropTerminator_append (body : Bytes) :
    dropTerminator (body ++ [newline]) =
      if body.getLast? = some carriageReturn then body.dropLast else body := by
  rcases List.eq_nil_or_concat body with rfl | ⟨before, b, rfl⟩
  · rfl
  · have hreverse : (before ++ [b] ++ [newline]).reverse = newline :: b :: before.reverse := by
      rw [List.reverse_append, List.reverse_append]
      rfl
    rw [List.concat_eq_append, dropTerminator, hreverse]
    simp only [if_true, List.getLast?_concat, List.dropLast_concat, Option.some.injEq,
      List.reverse_reverse, List.reverse_cons]

/-- The last byte of an encoded text comes from its last character. -/
theorem getLast?_encode {before : List Char} {c : Char} {b : UInt8}
    (h : (Utf8.encode (before ++ [c])).getLast? = some b) : b ∈ String.utf8EncodeChar c := by
  have hencode : Utf8.encode [c] = String.utf8EncodeChar c := List.append_nil _
  have hne : String.utf8EncodeChar c ≠ [] := by
    rw [Ne, ← List.length_eq_zero_iff, String.length_utf8EncodeChar]
    exact Nat.pos_iff_ne_zero.mp c.utf8Size_pos
  rw [Utf8.encode_append, hencode, List.getLast?_append,
    Option.or_of_isSome (List.getLast?_isSome.mpr hne)] at h
  exact List.mem_of_getLast? h

/-- The terminator of an encoded line is a newline and, if the text ends in one, a carriage
return. -/
theorem dropTerminator_encode (text : List Char) :
    ∃ kept, dropTerminator (Utf8.encode text ++ [newline]) = Utf8.encode kept ∧
      (text = kept ∨ text = kept ++ ['\r']) := by
  rw [dropTerminator_append]
  by_cases hreturn : (Utf8.encode text).getLast? = some carriageReturn
  · rcases List.eq_nil_or_concat text with rfl | ⟨before, c, rfl⟩
    · cases hreturn
    · rw [List.concat_eq_append] at hreturn ⊢
      have hc : c = '\r' := Utf8.mem_encodeChar (by decide) (getLast?_encode hreturn)
      subst hc
      refine ⟨before, ?_, .inr rfl⟩
      rw [if_pos hreturn, Utf8.encode_append]
      exact List.dropLast_concat
  · exact ⟨text, if_neg hreturn, .inl rfl⟩

end LineScript
