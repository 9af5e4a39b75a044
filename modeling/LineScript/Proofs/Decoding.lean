import Mathlib.Tactic.SplitIfs
import LineScript.Proofs.Stretch

/-!
# What decoding finds

The decoder is an automaton. Inside a character it knows how many bytes are missing, between
which bounds the next one must lie and which number the character has so far; this says
exactly which bytes would complete which characters. Main results: the pieces that the
automaton gives are those into which the rules for characters and stretches cut the bytes, and
bytes are decoded strictly exactly if they encode a text.
-/

namespace LineScript

namespace Utf8

/-- A valid number is that of its character. -/
theorem toNat_ofNat {n : Nat} (h : n.isValidChar) : (Char.ofNat n).toNat = n := by
  rw [Char.ofNat, dif_pos h]
  rfl

/-- A number that gives a character other than the first is the number of that character. -/
theorem ofNat_inj {n : Nat} {c : Char} (h : Char.ofNat n = c) (hc : c ≠ '\x00') : n = c.toNat := by
  by_cases hvalid : n.isValidChar
  · rw [← h, toNat_ofNat hvalid]
  · rw [Char.ofNat, dif_neg hvalid] at h
    exact absurd h.symm hc

/-- The bytes that complete an open character, and the number that they give to it. -/
def Completes (low high : UInt8) (bits : Nat) : Nat → Bytes → Nat → Prop
  | _, [], _ => False
  | 0, b :: rest, value =>
    (low ≤ b ∧ b ≤ high) ∧ rest = [] ∧ value = bits * 64 + (b.toNat - 0x80)
  | missing + 1, b :: rest, value =>
    (low ≤ b ∧ b ≤ high) ∧
      Completes 0x80 0xBF (bits * 64 + (b.toNat - 0x80)) missing rest value

/-- Whether bytes have led the decoder into a character: the characters that begin like this
are those that it would complete. -/
structure LeadsInto (taken : Bytes) (missing : Nat) (low high : UInt8) (bits : Nat) : Prop where
  /-- Something was taken. -/
  nonempty : taken ≠ []
  /-- Some byte goes on. -/
  open_bounds : low ≤ high
  /-- What is completed is a character. -/
  valid : ∀ more value, Completes low high bits missing more value → value.isValidChar
  /-- The bytes that complete a character are its other bytes. -/
  completes : ∀ more c, String.utf8EncodeChar c = taken ++ more ↔
    Completes low high bits missing more c.toNat

/-- A byte gives a piece or leaves a character open. -/
theorem step_progress (state : Open) (b : UInt8) (h : (step state b).2 = .nothing) :
    (step state b).1 ≠ [] := by
  have hfirst : (first b).2 = .nothing → (first b).1 ≠ [] := by
    rw [first]
    split_ifs <;> simp
  cases state with
  | nothing => exact hfirst h
  | inside taken missing low high bits =>
    rw [step] at h ⊢
    split_ifs at h ⊢ with hbounds
    · cases missing with
      | zero => exact List.cons_ne_nil _ _
      | succ missing => cases h
    · exact List.cons_ne_nil _ _

/-- A run that gives nothing had nothing to read. -/
theorem eq_nil_of_run {state : Open} {bytes : Bytes} (h : run state bytes = []) :
    state = .nothing ∧ bytes = [] := by
  induction bytes generalizing state with
  | nil =>
    cases state with
    | nothing => exact ⟨rfl, rfl⟩
    | inside => cases h
  | cons b rest ih =>
    obtain ⟨hpieces, hrest⟩ := List.append_eq_nil_iff.mp h
    exact absurd hpieces (step_progress state b (ih hrest).1)

/-- A run that gives one character completes it. -/
theorem completes_of_run {taken missing bits : Nat} {low high : UInt8} {more : Bytes} {c : Char}
    (h : run (.inside taken missing low high bits) more = [.char c]) (hc : c ≠ '\x00') :
    Completes low high bits missing more c.toNat := by
  induction more generalizing taken missing low high bits with
  | nil => cases h
  | cons b rest ih =>
    rw [run, step] at h
    split at h
    · next hbounds =>
      cases missing with
      | zero =>
        obtain ⟨hchar, hrest⟩ := List.cons.inj h
        refine ⟨hbounds, (eq_nil_of_run hrest).2, ?_⟩
        exact (ofNat_inj (Piece.char.inj hchar) hc).symm
      | succ missing => exact ⟨hbounds, ih h⟩
    · cases h

/-- The last byte that completes a character. -/
theorem Completes.last {low high : UInt8} {bits value : Nat} {more : Bytes}
    (h : Completes low high bits 0 more value) :
    ∃ b : UInt8, more = [b] ∧ low.toNat ≤ b.toNat ∧ b.toNat ≤ high.toNat ∧
      value = bits * 64 + (b.toNat - 0x80) := by
  cases more with
  | nil => cases h
  | cons b rest =>
    obtain ⟨⟨hlow, hhigh⟩, rfl, hvalue⟩ := h
    exact ⟨b, rfl, hlow, hhigh, hvalue⟩

/-- A byte that goes on with a character, and those that complete it then. -/
theorem Completes.next {low high : UInt8} {bits missing value : Nat} {more : Bytes}
    (h : Completes low high bits (missing + 1) more value) :
    ∃ (b : UInt8) (rest : Bytes), more = b :: rest ∧ low.toNat ≤ b.toNat ∧ b.toNat ≤ high.toNat ∧
      Completes 0x80 0xBF (bits * 64 + (b.toNat - 0x80)) missing rest value := by
  cases more with
  | nil => cases h
  | cons b rest =>
    obtain ⟨⟨hlow, hhigh⟩, hrest⟩ := h
    exact ⟨b, rest, rfl, hlow, hhigh, hrest⟩

/-- A character that was opened by its first byte: it is enough that the completions are
characters with these bytes. -/
theorem LeadsInto.of_first {b : UInt8} {missing bits : Nat} {low high : UInt8}
    (hfirst : first b = ([], .inside 1 missing low high bits)) (hbounds : low ≤ high)
    (hvalid : ∀ more value, Completes low high bits missing more value → value.isValidChar)
    (hencode : ∀ more c, Completes low high bits missing more c.toNat →
      String.utf8EncodeChar c = b :: more) :
    LeadsInto [b] missing low high bits where
  nonempty := List.cons_ne_nil _ _
  open_bounds := hbounds
  valid := hvalid
  completes more c := by
    refine ⟨fun h => ?_, hencode more c⟩
    have hrun := run_encodeChar_self c
    rw [h, List.singleton_append, run, step, hfirst, List.nil_append] at hrun
    refine completes_of_run hrun fun hzero => ?_
    have hb : b = 0 := by
      rw [hzero] at h
      exact (List.cons.inj h).1.symm
    rw [hb] at hfirst
    cases hfirst

/-- A first byte from 0xC2 on opens a character of two bytes. -/
theorem first_eq_two {b : UInt8} (hlow : 0xC2 ≤ b.toNat) (hhigh : b.toNat < 0xE0) :
    first b = ([], .inside 1 0 0x80 0xBF (b.toNat - 0xC0)) := by
  have hfirst := first_two hlow hhigh
  rwa [UInt8.ofNat_toNat] at hfirst

/-- A first byte from 0xE0 on opens a character of three bytes. -/
theorem first_eq_three {b : UInt8} (hlow : 0xE0 ≤ b.toNat) (hhigh : b.toNat < 0xF0) :
    first b = ([], .inside 1 1 (if b = 0xE0 then 0xA0 else 0x80)
      (if b = 0xED then 0x9F else 0xBF) (b.toNat - 0xE0)) := by
  have hfirst := first_three hlow hhigh
  rw [UInt8.ofNat_toNat] at hfirst
  simp only [← UInt8.toNat_inj]
  exact hfirst

/-- A first byte from 0xF0 on opens a character of four bytes. -/
theorem first_eq_four {b : UInt8} (hlow : 0xF0 ≤ b.toNat) (hhigh : b.toNat < 0xF5) :
    first b = ([], .inside 1 2 (if b = 0xF0 then 0x90 else 0x80)
      (if b = 0xF4 then 0x8F else 0xBF) (b.toNat - 0xF0)) := by
  have hfirst := first_four hlow hhigh
  rw [UInt8.ofNat_toNat] at hfirst
  simp only [← UInt8.toNat_inj]
  exact hfirst

/-- A first byte from 0xC2 on leads into a character of two bytes. -/
theorem leadsInto_two {b : UInt8} (hlow : 0xC2 ≤ b.toNat) (hhigh : b.toNat < 0xE0) :
    LeadsInto [b] 0 0x80 0xBF (b.toNat - 0xC0) := by
  refine .of_first (first_eq_two hlow hhigh) (by decide) (fun more value h => ?_) fun more c h => ?_
  · obtain ⟨b₁, _, (h₁ : 0x80 ≤ b₁.toNat), (h₁' : b₁.toNat ≤ 0xBF), hvalue⟩ := h.last
    left
    omega
  · obtain ⟨b₁, rfl, (h₁ : 0x80 ≤ b₁.toNat), (h₁' : b₁.toNat ≤ 0xBF), hvalue⟩ := h.last
    have hnumber : c.val.toNat = (b.toNat - 0xC0) * 64 + (b₁.toNat - 0x80) := hvalue
    have hbytes : c.val.toNat / 64 % 32 + 0xC0 = b.toNat ∧ c.val.toNat % 64 + 0x80 = b₁.toNat := by
      omega
    simp only [String.utf8EncodeChar]
    rw [if_neg (by omega), if_pos (by omega), hbytes.1, hbytes.2, UInt8.ofNat_toNat,
      UInt8.ofNat_toNat]

/-- The bounds on the byte after 0xE0 and 0xED, as numbers. -/
theorem bounds_three (b : UInt8) :
    (if b = 0xE0 then (0xA0 : UInt8) else 0x80).toNat =
        (if b.toNat = 0xE0 then 0xA0 else 0x80) ∧
      (if b = 0xED then (0x9F : UInt8) else 0xBF).toNat =
        (if b.toNat = 0xED then 0x9F else 0xBF) := by
  simp only [← UInt8.toNat_inj, apply_ite UInt8.toNat]
  exact ⟨rfl, rfl⟩

/-- The bounds on the byte after 0xF0 and 0xF4, as numbers. -/
theorem bounds_four (b : UInt8) :
    (if b = 0xF0 then (0x90 : UInt8) else 0x80).toNat =
        (if b.toNat = 0xF0 then 0x90 else 0x80) ∧
      (if b = 0xF4 then (0x8F : UInt8) else 0xBF).toNat =
        (if b.toNat = 0xF4 then 0x8F else 0xBF) := by
  simp only [← UInt8.toNat_inj, apply_ite UInt8.toNat]
  exact ⟨rfl, rfl⟩

/-- A first byte from 0xE0 on leads into a character of three bytes. -/
theorem leadsInto_three {b : UInt8} (hlow : 0xE0 ≤ b.toNat) (hhigh : b.toNat < 0xF0) :
    LeadsInto [b] 1 (if b = 0xE0 then 0xA0 else 0x80) (if b = 0xED then 0x9F else 0xBF)
      (b.toNat - 0xE0) := by
  obtain ⟨hleast, hgreatest⟩ := bounds_three b
  refine .of_first (first_eq_three hlow hhigh) ?_ (fun more value h => ?_) fun more c h => ?_
  · rw [UInt8.le_iff_toNat_le, hleast, hgreatest]
    split_ifs <;> omega
  · obtain ⟨b₁, more, _, h₁, h₁', h⟩ := h.next
    obtain ⟨b₂, _, (h₂ : 0x80 ≤ b₂.toNat), (h₂' : b₂.toNat ≤ 0xBF), hvalue⟩ := h.last
    rw [hleast] at h₁
    rw [hgreatest] at h₁'
    rw [Nat.isValidChar]
    split_ifs at h₁ h₁' <;> omega
  · obtain ⟨b₁, more, rfl, h₁, h₁', h⟩ := h.next
    obtain ⟨b₂, rfl, (h₂ : 0x80 ≤ b₂.toNat), (h₂' : b₂.toNat ≤ 0xBF), hvalue⟩ := h.last
    rw [hleast] at h₁
    rw [hgreatest] at h₁'
    have hnumber : c.val.toNat =
        ((b.toNat - 0xE0) * 64 + (b₁.toNat - 0x80)) * 64 + (b₂.toNat - 0x80) := hvalue
    have hwide : 0x80 ≤ b₁.toNat ∧ b₁.toNat ≤ 0xBF := by split_ifs at h₁ h₁' <;> omega
    have hlong : 0x800 ≤ c.val.toNat := by split_ifs at h₁ <;> omega
    have hbytes : c.val.toNat / 4096 % 16 + 0xE0 = b.toNat ∧
        c.val.toNat / 64 % 64 + 0x80 = b₁.toNat ∧ c.val.toNat % 64 + 0x80 = b₂.toNat := by
      omega
    simp only [String.utf8EncodeChar]
    rw [if_neg (by omega), if_neg (by omega), if_pos (by omega), hbytes.1, hbytes.2.1, hbytes.2.2,
      UInt8.ofNat_toNat, UInt8.ofNat_toNat, UInt8.ofNat_toNat]

/-- A first byte from 0xF0 on leads into a character of four bytes. -/
theorem leadsInto_four {b : UInt8} (hlow : 0xF0 ≤ b.toNat) (hhigh : b.toNat < 0xF5) :
    LeadsInto [b] 2 (if b = 0xF0 then 0x90 else 0x80) (if b = 0xF4 then 0x8F else 0xBF)
      (b.toNat - 0xF0) := by
  obtain ⟨hleast, hgreatest⟩ := bounds_four b
  refine .of_first (first_eq_four hlow hhigh) ?_ (fun more value h => ?_) fun more c h => ?_
  · rw [UInt8.le_iff_toNat_le, hleast, hgreatest]
    split_ifs <;> omega
  · obtain ⟨b₁, more, _, h₁, h₁', h⟩ := h.next
    obtain ⟨b₂, more, _, (h₂ : 0x80 ≤ b₂.toNat), (h₂' : b₂.toNat ≤ 0xBF), h⟩ := h.next
    obtain ⟨b₃, _, (h₃ : 0x80 ≤ b₃.toNat), (h₃' : b₃.toNat ≤ 0xBF), hvalue⟩ := h.last
    rw [hleast] at h₁
    rw [hgreatest] at h₁'
    rw [Nat.isValidChar]
    split_ifs at h₁ h₁' <;> omega
  · obtain ⟨b₁, more, rfl, h₁, h₁', h⟩ := h.next
    obtain ⟨b₂, more, rfl, (h₂ : 0x80 ≤ b₂.toNat), (h₂' : b₂.toNat ≤ 0xBF), h⟩ := h.next
    obtain ⟨b₃, rfl, (h₃ : 0x80 ≤ b₃.toNat), (h₃' : b₃.toNat ≤ 0xBF), hvalue⟩ := h.last
    rw [hleast] at h₁
    rw [hgreatest] at h₁'
    have hnumber : c.val.toNat =
        (((b.toNat - 0xF0) * 64 + (b₁.toNat - 0x80)) * 64 + (b₂.toNat - 0x80)) * 64 +
          (b₃.toNat - 0x80) := hvalue
    have hwide : 0x80 ≤ b₁.toNat ∧ b₁.toNat ≤ 0xBF := by split_ifs at h₁ h₁' <;> omega
    have hlong : 0x10000 ≤ c.val.toNat := by split_ifs at h₁ <;> omega
    have hbytes : c.val.toNat / 262144 % 8 + 0xF0 = b.toNat ∧
        c.val.toNat / 4096 % 64 + 0x80 = b₁.toNat ∧
        c.val.toNat / 64 % 64 + 0x80 = b₂.toNat ∧ c.val.toNat % 64 + 0x80 = b₃.toNat := by
      omega
    obtain ⟨hb, hb₁, hb₂, hb₃⟩ := hbytes
    simp only [String.utf8EncodeChar]
    rw [if_neg (by omega), if_neg (by omega), if_neg (by omega), hb, hb₁, hb₂, hb₃,
      UInt8.ofNat_toNat, UInt8.ofNat_toNat, UInt8.ofNat_toNat, UInt8.ofNat_toNat]

/-- Some bytes complete an open character. -/
theorem exists_completes {low high b : UInt8} (hb : low ≤ b ∧ b ≤ high) (bits missing : Nat) :
    ∃ rest value, Completes low high bits missing (b :: rest) value := by
  induction missing generalizing low high bits b with
  | zero => exact ⟨[], _, hb, rfl, rfl⟩
  | succ missing ih =>
    have htail : (0x80 : UInt8) ≤ 0x80 ∧ (0x80 : UInt8) ≤ 0xBF := by decide
    obtain ⟨rest, value, hrest⟩ := ih htail (bits * 64 + (b.toNat - 0x80))
    exact ⟨0x80 :: rest, value, hb, hrest⟩

namespace LeadsInto

variable {taken : Bytes} {missing bits : Nat} {low high : UInt8}

/-- A byte goes on with some character exactly if it is within the bounds. -/
theorem begins_iff (h : LeadsInto taken missing low high bits) (b : UInt8) :
    Begins (taken ++ [b]) ↔ low ≤ b ∧ b ≤ high := by
  constructor
  · rintro ⟨c, more, hc⟩
    rw [List.append_assoc, List.singleton_append] at hc
    have hcompletes := (h.completes (b :: more) c).mp hc.symm
    cases missing with
    | zero => exact hcompletes.1
    | succ missing => exact hcompletes.1
  · intro hb
    obtain ⟨rest, value, hcompletes⟩ := exists_completes hb bits missing
    have hnumber : (Char.ofNat value).toNat = value := toNat_ofNat (h.valid _ _ hcompletes)
    refine ⟨Char.ofNat value, rest, ?_⟩
    rw [List.append_assoc, List.singleton_append]
    exact ((h.completes (b :: rest) _).mpr (hnumber.symm ▸ hcompletes)).symm

/-- Some character begins with what was taken. -/
theorem begins (h : LeadsInto taken missing low high bits) : Begins taken := by
  obtain ⟨c, hc⟩ := (h.begins_iff low).mpr ⟨UInt8.le_refl low, h.open_bounds⟩
  exact ⟨c, (List.prefix_append taken [low]).trans hc⟩

/-- The bytes of a character are longer than what was taken. -/
theorem not_prefix (h : LeadsInto taken missing low high bits) (c : Char) :
    ¬ String.utf8EncodeChar c <+: taken := by
  intro hc
  obtain ⟨d, more, hd⟩ := h.begins
  have heq : c = d := eq_of_encodeChar_begins (hc.trans ⟨more, hd⟩)
  have hnone : more = [] := by
    have hlength := hc.length_le
    have hsum := congrArg List.length hd
    rw [heq] at hlength
    rw [List.length_append] at hsum
    exact List.eq_nil_of_length_eq_zero (by omega)
  have hcompletes := (h.completes more d).mp hd.symm
  rw [hnone] at hcompletes
  cases missing <;> exact hcompletes

/-- What was taken is cut off if nothing follows. -/
theorem isCutOff (h : LeadsInto taken missing low high bits) : IsCutOff taken :=
  ⟨h.nonempty, h.begins, h.not_prefix⟩

/-- What was taken is a stretch if a byte follows that does not go on with it. -/
theorem isStretch (h : LeadsInto taken missing low high bits) {b : UInt8}
    (hb : ¬ (low ≤ b ∧ b ≤ high)) (rest : Bytes) : IsStretch taken (b :: rest) := by
  have hnot : ¬ Begins (taken ++ [b]) := fun hbegins => hb ((h.begins_iff b).mp hbegins)
  refine ⟨fun c hc => ?_, .inl ⟨h.nonempty, h.begins, b, rest, rfl, hnot⟩⟩
  have hown : taken ++ [b] <+: taken ++ b :: rest :=
    ⟨rest, by rw [List.append_assoc, List.singleton_append]⟩
  rcases List.prefix_or_prefix_of_prefix hc hown with hshort | hlong
  · rcases List.prefix_concat_iff.mp hshort with heq | hshort
    · exact hnot ⟨c, heq ▸ List.prefix_rfl⟩
    · exact h.not_prefix c hshort
  · exact hnot ⟨c, hlong⟩

/-- A byte within the bounds leads on. -/
theorem next (h : LeadsInto taken (missing + 1) low high bits) {b : UInt8}
    (hb : low ≤ b ∧ b ≤ high) :
    LeadsInto (taken ++ [b]) missing 0x80 0xBF (bits * 64 + (b.toNat - 0x80)) where
  nonempty := List.append_ne_nil_of_left_ne_nil h.nonempty _
  open_bounds := by decide
  valid more value hmore := h.valid (b :: more) value ⟨hb, hmore⟩
  completes more c := by
    rw [List.append_assoc, List.singleton_append, h.completes]
    exact ⟨fun hmore => hmore.2, fun hmore => ⟨hb, hmore⟩⟩

/-- The last byte within the bounds completes a character. -/
theorem encodeChar_eq (h : LeadsInto taken 0 low high bits) {b : UInt8}
    (hb : low ≤ b ∧ b ≤ high) :
    String.utf8EncodeChar (Char.ofNat (bits * 64 + (b.toNat - 0x80))) = taken ++ [b] := by
  have hcompletes : Completes low high bits 0 [b] (bits * 64 + (b.toNat - 0x80)) := ⟨hb, rfl, rfl⟩
  have hnumber := toNat_ofNat (h.valid _ _ hcompletes)
  exact (h.completes [b] _).mpr (hnumber.symm ▸ hcompletes)

end LeadsInto

/-- A byte that begins no character stands alone. -/
theorem first_none {b : UInt8} (hlow : 0x80 ≤ b.toNat) (h : b.toNat < 0xC2 ∨ 0xF5 ≤ b.toNat) :
    first b = ([.invalid 1], .nothing) := by
  have hle (n : UInt8) (hn : n.toNat ≤ b.toNat) : ¬ b < n := by
    rw [UInt8.lt_iff_toNat_lt]
    exact Nat.not_lt.mpr hn
  rw [first, if_neg (hle 0x80 hlow)]
  rcases h with hC2 | hF5
  · rw [if_pos (UInt8.lt_iff_toNat_lt.mpr hC2)]
  · rw [if_neg (hle 0xC2 (Nat.le_trans (by decide) hF5)),
      if_neg (hle 0xE0 (Nat.le_trans (by decide) hF5)),
      if_neg (hle 0xF0 (Nat.le_trans (by decide) hF5)), if_neg (hle 0xF5 hF5)]

/-- A byte between characters is one itself, begins none, or leads into one. -/
theorem first_cases (b : UInt8) :
    (first b = ([.char (Char.ofNat b.toNat)], .nothing) ∧
        String.utf8EncodeChar (Char.ofNat b.toNat) = [b]) ∨
      (first b = ([.invalid 1], .nothing) ∧ ¬ Begins [b]) ∨
      ∃ missing low high bits, first b = ([], .inside 1 missing low high bits) ∧
        LeadsInto [b] missing low high bits := by
  have hrange : b.toNat < 0x80 ∨ (0x80 ≤ b.toNat ∧ (b.toNat < 0xC2 ∨ 0xF5 ≤ b.toNat)) ∨
      (0xC2 ≤ b.toNat ∧ b.toNat < 0xE0) ∨ (0xE0 ≤ b.toNat ∧ b.toNat < 0xF0) ∨
      (0xF0 ≤ b.toNat ∧ b.toNat < 0xF5) := by
    omega
  rcases hrange with hone | ⟨hlow, hnone⟩ | ⟨hlow, hhigh⟩ | ⟨hlow, hhigh⟩ | ⟨hlow, hhigh⟩
  · left
    have hfirst := first_one hone
    have hnumber : (Char.ofNat b.toNat).val.toNat = b.toNat := toNat_ofNat (.inl (by omega))
    rw [UInt8.ofNat_toNat] at hfirst
    refine ⟨hfirst, ?_⟩
    simp only [String.utf8EncodeChar, hnumber]
    rw [if_pos (by omega), UInt8.ofNat_toNat]
  · right
    left
    have hfirst := first_none hlow hnone
    refine ⟨hfirst, ?_⟩
    -- The decoder would have found a character that begins like this.
    rintro ⟨c, more, hc⟩
    have hrun := run_encodeChar_self c
    rw [← hc, List.singleton_append, run, step, hfirst] at hrun
    cases hrun
  · exact .inr (.inr ⟨_, _, _, _, first_eq_two hlow hhigh, leadsInto_two hlow hhigh⟩)
  · exact .inr (.inr ⟨_, _, _, _, first_eq_three hlow hhigh, leadsInto_three hlow hhigh⟩)
  · exact .inr (.inr ⟨_, _, _, _, first_eq_four hlow hhigh, leadsInto_four hlow hhigh⟩)

/-- What the decoder finds obeys the rules, from between characters and from inside one. -/
theorem cutInto_run (bytes : Bytes) :
    CutInto bytes (run .nothing bytes) ∧
      ∀ {taken missing low high bits}, LeadsInto taken missing low high bits →
        CutInto (taken ++ bytes) (run (.inside taken.length missing low high bits) bytes) := by
  induction bytes with
  | nil =>
    refine ⟨.nil, fun h => ?_⟩
    rw [List.append_nil]
    exact .incomplete h.isCutOff
  | cons b rest ih =>
    obtain ⟨hnothing, hinside⟩ := ih
    have hfresh : CutInto (b :: rest) (run .nothing (b :: rest)) := by
      rw [run, step]
      rcases first_cases b with ⟨hfirst, hencode⟩ | ⟨hfirst, hnone⟩ | ⟨_, _, _, _, hfirst, hleads⟩
      · rw [hfirst, ← List.singleton_append (x := b), ← hencode]
        exact .char _ hnothing
      · rw [hfirst, ← List.singleton_append (x := b)]
        exact .invalid (.of_single hnone rest) hnothing
      · rw [hfirst]
        exact hinside hleads
    refine ⟨hfresh, fun {taken missing low high bits} h => ?_⟩
    rw [run, step]
    by_cases hb : low ≤ b ∧ b ≤ high
    · rw [if_pos hb]
      have hassoc : taken ++ b :: rest = taken ++ [b] ++ rest := by
        rw [List.append_assoc, List.singleton_append]
      cases missing with
      | zero =>
        rw [hassoc, ← h.encodeChar_eq hb]
        exact .char _ hnothing
      | succ missing =>
        have hlength : taken.length + 1 = (taken ++ [b]).length := by
          rw [List.length_append, List.length_singleton]
        rw [hassoc]
        dsimp only
        rw [hlength]
        exact hinside (h.next hb)
    · rw [if_neg hb]
      exact .invalid (h.isStretch hb rest) hfresh

/-- The pieces of bytes are those into which the rules cut them. -/
theorem cutInto_iff {bytes : Bytes} {pieces : List Piece} :
    CutInto bytes pieces ↔ pieces = Utf8.pieces bytes :=
  ⟨fun h => h.unique (cutInto_run bytes).1, fun h => h ▸ (cutInto_run bytes).1⟩

/-- Bytes that are cut into characters encode them. -/
theorem CutInto.eq_encode {bytes : Bytes} {text : List Char} (h : CutInto bytes (text.map .char)) :
    bytes = encode text := by
  induction text generalizing bytes with
  | nil =>
    generalize hpieces : List.map Piece.char [] = pieces at h
    cases h with
    | nil => rfl
    | _ => cases hpieces
  | cons c text ih =>
    generalize hpieces : List.map Piece.char (c :: text) = pieces at h
    cases h with
    | @char d rest pieces later =>
      obtain ⟨hd, hrest⟩ := List.cons.inj hpieces
      cases Piece.char.inj hd
      have hlater : CutInto rest (text.map .char) := hrest ▸ later
      rw [ih hlater]
      rfl
    | _ => cases hpieces

/-- Only characters are gathered. -/
theorem eq_of_gather {index : Nat} {pieces : List Piece} {text : List Char}
    (h : gather index pieces = .ok text) : pieces = text.map .char := by
  induction pieces generalizing index text with
  | nil =>
    cases h
    rfl
  | cons piece rest ih =>
    cases piece with
    | invalid length => cases h
    | incomplete length => cases h
    | char c =>
      cases hrest : gather (index + c.utf8Size) rest with
      | error malformed =>
        rw [gather, hrest] at h
        cases h
      | ok later =>
        rw [gather, hrest] at h
        cases h
        rw [List.map_cons, ih hrest]

/-- Bytes are decoded strictly exactly if they are those of a text, and to that text. -/
theorem decodeString_eq_ok_iff {bytes : Bytes} {text : String} :
    decodeString bytes = .ok text ↔ bytes = ofString text := by
  constructor
  · intro h
    cases hdecode : decode bytes with
    | error malformed =>
      rw [decodeString, hdecode] at h
      cases h
    | ok chars =>
      rw [decodeString, hdecode] at h
      cases h
      have hcut : CutInto bytes (chars.map .char) := cutInto_iff.mpr (eq_of_gather hdecode).symm
      rw [ofString_eq_encode, String.toList_ofList, ← hcut.eq_encode]
  · rintro rfl
    rw [ofString_eq_encode, decodeString_encode, String.ofList_toList]

/-- The bytes of a text are decoded to it without failing too. -/
theorem decodeStringLossy_ofString (text : String) :
    decodeStringLossy (ofString text) = text := by
  have hshown : (text.toList.map Piece.char).map Piece.shown = text.toList := by
    rw [List.map_map]
    exact List.map_id _
  rw [decodeStringLossy, decodeLossy, ofString_eq_encode, pieces_encode, hshown,
    String.ofList_toList]

end Utf8

end LineScript
