import LineScript.Text.Utf8

/-!
# Spelling out bytes

Programs handle bytes, and treat them as characters without asking what they
mean together. Inside a machine a text is therefore spelled: it holds one
character for each byte, the character with the byte's number. Spelling out a
text and reading it back gives the text.
-/

namespace LineScript.Machine

/-- The characters that spell bytes. -/
def spellBytes (bytes : Bytes) : String := String.ofList (bytes.map fun b => Char.ofNat b.toNat)

/-- The bytes of a spelled text. -/
def bytesOf (spelled : String) : Bytes := spelled.toList.map fun c => UInt8.ofNat c.toNat

/-- Spells out a text. -/
def spell (text : String) : String := spellBytes (Utf8.ofString text)

/-- The text that is spelled out; what is not UTF-8 is replaced. -/
def unspell (spelled : String) : String := Utf8.decodeStringLossy (bytesOf spelled)

/-- A character that spells a byte spells that byte. -/
theorem toNat_charOf (b : UInt8) : (Char.ofNat b.toNat).toNat = b.toNat := by
  have h : b.toNat < 256 := UInt8.toNat_lt b
  have valid : b.toNat.isValidChar := Or.inl (by omega)
  rw [Char.ofNat, dif_pos valid]
  rfl

/-- Spelling loses nothing. -/
@[simp] theorem bytesOf_spellBytes (bytes : Bytes) : bytesOf (spellBytes bytes) = bytes := by
  simp only [bytesOf, spellBytes, String.toList_ofList, List.map_map]
  refine (List.map_congr_left fun b _ => ?_).trans (List.map_id bytes)
  simp [Function.comp, toNat_charOf]

end LineScript.Machine
