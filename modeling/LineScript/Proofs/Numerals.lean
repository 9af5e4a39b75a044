import Mathlib.Algebra.Order.Field.Basic
import Mathlib.Algebra.Order.Field.Power
import Mathlib.Algebra.Order.Field.Rat
import Mathlib.Data.List.TakeWhile
import Mathlib.Data.Nat.Digits.Defs
import Mathlib.Tactic.FieldSimp
import Mathlib.Tactic.Ring
import LineScript.Number.Literal

/-!
# How finite numbers are written

The grammar of finite literals, as the spellings that there are: a sign or none, digits, a
point with digits behind it or none, and an exponent or none, with a digit around the point.
What a spelling stands for is an exact fraction, positional in base ten. Main result: the
texts that are read as finite literals are exactly the texts of spellings, and what is read is
what the spelling stands for.
-/

namespace LineScript

namespace Literal

/-- A sign as it is written, if it is. -/
inductive Sign where
  /-- No sign. -/
  | absent
  /-- A plus. -/
  | plus
  /-- A minus. -/
  | minus
  deriving DecidableEq, Repr

namespace Sign

/-- The text of a sign. -/
def text : Sign → List Char
  | absent => []
  | plus => ['+']
  | minus => ['-']

/-- Whether a sign is a minus. -/
def isMinus : Sign → Bool
  | minus => true
  | _ => false

end Sign

/-- The text of digits. -/
def digitsText (digits : List (Fin 10)) : List Char := digits.map fun d => Nat.digitChar d.val

/-- The number that digits stand for, the last one being that of the ones. -/
def number (digits : List (Fin 10)) : Nat := Nat.ofDigits 10 (digits.reverse.map Fin.val)

/-- An exponent as it is written. -/
structure Power where
  /-- The letter before it. -/
  mark : Char
  /-- It is the one letter for it, small or large. -/
  marked : mark = 'e' ∨ mark = 'E'
  /-- The sign. -/
  sign : Sign
  /-- The digits. -/
  digits : List (Fin 10)
  /-- There are digits. -/
  nonempty : digits ≠ []

/-- A finite number as it is written. -/
structure Spelling where
  /-- The sign. -/
  sign : Sign
  /-- The digits before the point. -/
  whole : List (Fin 10)
  /-- The digits behind the point, if there is one. -/
  fraction : Option (List (Fin 10))
  /-- The exponent, if there is one. -/
  power : Option Power
  /-- There are digits before the point or behind it. -/
  nonempty : whole ≠ [] ∨ fraction.getD [] ≠ []

/-- The text of a point with the digits behind it. -/
def fractionText : Option (List (Fin 10)) → List Char
  | none => []
  | some digits => '.' :: digitsText digits

/-- The text of an exponent. -/
def powerText : Option Power → List Char
  | none => []
  | some power => power.mark :: (power.sign.text ++ digitsText power.digits)

/-- The power of ten that an exponent stands for. -/
def powerOf : Option Power → Int
  | none => 0
  | some power => if power.sign.isMinus then -(number power.digits) else number power.digits

namespace Spelling

/-- The text behind the sign. -/
def unsigned (s : Spelling) : List Char :=
  digitsText s.whole ++ (fractionText s.fraction ++ powerText s.power)

/-- The text. -/
def text (s : Spelling) : List Char := s.sign.text ++ s.unsigned

/-- The number without its sign. -/
def magnitude (s : Spelling) : ℚ :=
  (number s.whole + number (s.fraction.getD []) / 10 ^ (s.fraction.getD []).length) *
    10 ^ powerOf s.power

/-- The number. -/
def value (s : Spelling) : ℚ := if s.sign.isMinus then -s.magnitude else s.magnitude

/-- All digits, as one whole number. -/
def digits (s : Spelling) : Nat := number (s.whole ++ s.fraction.getD [])

/-- The power of ten of the last digit. -/
def exponent (s : Spelling) : Int := powerOf s.power - (s.fraction.getD []).length

end Spelling

/-- A digit has its value. -/
theorem digit?_digitChar (d : Fin 10) : digit? (Nat.digitChar d) = some d.val := by
  revert d
  decide

/-- What has a value is a digit. -/
theorem exists_digitChar {c : Char} (h : (digit? c).isSome = true) :
    ∃ d : Fin 10, c = Nat.digitChar d := by
  have hcode (d : Fin 10) : (Nat.digitChar d).toNat = 48 + d.val := by
    revert d
    decide
  by_cases hc : '0' ≤ c ∧ c ≤ '9'
  · obtain ⟨hlow, hhigh⟩ := hc
    rw [Char.le_def, UInt32.le_iff_toNat_le] at hlow hhigh
    have hfirst : 48 ≤ c.toNat := hlow
    have hlast : c.toNat ≤ 57 := hhigh
    refine ⟨⟨c.toNat - 48, by omega⟩, Char.toNat_inj.mp ?_⟩
    rw [hcode]
    exact (Nat.add_sub_cancel' hfirst).symm
  · rw [digit?, if_neg hc] at h
    cases h

/-- Digits in a row: the number of the first ones moves up by the length of the others. -/
theorem number_append (first second : List (Fin 10)) :
    number (first ++ second) = number first * 10 ^ second.length + number second := by
  rw [number, List.reverse_append, List.map_append, Nat.ofDigits_append, List.length_map,
    List.length_reverse, Nat.add_comm, Nat.mul_comm]
  rfl

/-- The number of digits is read off them, behind what was read before. -/
theorem natOf_digitsText (acc : Nat) (digits : List (Fin 10)) :
    natOf acc (digitsText digits) = acc * 10 ^ digits.length + number digits := by
  induction digits generalizing acc with
  | nil => simp [natOf, digitsText, number]
  | cons d digits ih =>
    have hd : (Nat.digitChar d).toNat - '0'.toNat = d.val := by
      revert d
      decide
    have hcons : number (d :: digits) = d.val * 10 ^ digits.length + number digits := by
      rw [← List.singleton_append, number_append]
      simp [number]
    calc natOf acc (digitsText (d :: digits))
        = natOf (10 * acc + d.val) (digitsText digits) := by
          rw [← hd]
          rfl
      _ = (10 * acc + d.val) * 10 ^ digits.length + number digits := ih _
      _ = acc * 10 ^ (d :: digits).length + number (d :: digits) := by
          rw [hcons, List.length_cons]
          ring

/-- The number of digits is read off them. -/
theorem natOf_zero (digits : List (Fin 10)) : natOf 0 (digitsText digits) = number digits := by
  rw [natOf_digitsText, Nat.zero_mul, Nat.zero_add]

/-- Digits are read up to what is none. -/
theorem spanDigits_append (digits : List (Fin 10)) {rest : List Char}
    (h : ∀ c ∈ rest.head?, digit? c = none) :
    spanDigits (digitsText digits ++ rest) = (digitsText digits, rest) := by
  have hdigits : ∀ c ∈ digitsText digits, (digit? c).isSome = true := by
    intro c hc
    obtain ⟨d, -, rfl⟩ := List.mem_map.mp hc
    rw [digit?_digitChar, Option.isSome_some]
  have hrest : rest.takeWhile (fun c => (digit? c).isSome) = [] ∧
      rest.dropWhile (fun c => (digit? c).isSome) = rest := by
    cases rest with
    | nil => exact ⟨rfl, rfl⟩
    | cons c rest =>
      have hc : ¬ (digit? c).isSome = true := by rw [h c rfl]; nofun
      exact ⟨List.takeWhile_cons_of_neg hc, List.dropWhile_cons_of_neg hc⟩
  rw [spanDigits, List.span_eq_takeWhile_dropWhile, List.takeWhile_append_of_pos hdigits,
    List.dropWhile_append_of_pos hdigits, hrest.1, hrest.2, List.append_nil]

/-- What is read as digits are digits. -/
theorem exists_spanDigits (text : List Char) :
    ∃ digits rest, text = digitsText digits ++ rest ∧
      spanDigits text = (digitsText digits, rest) := by
  have hexists (text : List Char) (h : ∀ c ∈ text, (digit? c).isSome = true) :
      ∃ digits, text = digitsText digits := by
    induction text with
    | nil => exact ⟨[], rfl⟩
    | cons c text ih =>
      obtain ⟨hc, htext⟩ := List.forall_mem_cons.mp h
      obtain ⟨d, rfl⟩ := exists_digitChar hc
      obtain ⟨digits, rfl⟩ := ih htext
      exact ⟨d :: digits, rfl⟩
  obtain ⟨digits, hdigits⟩ := hexists (text.takeWhile fun c => (digit? c).isSome) fun c hc =>
    List.mem_takeWhile_imp (p := fun c => (digit? c).isSome) hc
  refine ⟨digits, text.dropWhile fun c => (digit? c).isSome, ?_, ?_⟩
  · rw [← hdigits, List.takeWhile_append_dropWhile]
  · rw [spanDigits, List.span_eq_takeWhile_dropWhile, hdigits]

/-- A sign is read, before a text that begins with none. -/
theorem spanSign_append (sign : Sign) {rest : List Char}
    (h : ∀ c ∈ rest.head?, c ≠ '-' ∧ c ≠ '+') :
    spanSign (sign.text ++ rest) = (sign.isMinus, rest) := by
  cases sign with
  | plus => rfl
  | minus => rfl
  | absent =>
    cases rest with
    | nil => rfl
    | cons c rest =>
      obtain ⟨hminus, hplus⟩ := h c rfl
      exact spanSign.eq_3 _ (fun _ heq => hminus (List.cons.inj heq).1)
        fun _ heq => hplus (List.cons.inj heq).1

/-- What is read as a sign is one. -/
theorem exists_spanSign (text : List Char) :
    ∃ sign rest, text = Sign.text sign ++ rest ∧ spanSign text = (sign.isMinus, rest) := by
  rcases text with _ | ⟨c, rest⟩
  · exact ⟨.absent, [], rfl, rfl⟩
  · by_cases hminus : c = '-'
    · exact ⟨.minus, rest, by rw [hminus]; rfl, by rw [hminus]; rfl⟩
    · by_cases hplus : c = '+'
      · exact ⟨.plus, rest, by rw [hplus]; rfl, by rw [hplus]; rfl⟩
      · refine ⟨.absent, c :: rest, rfl, spanSign_append .absent ?_⟩
        rintro _ ⟨⟩
        exact ⟨hminus, hplus⟩

/-- What an unsigned number may begin with: a digit or a point. -/
def Opens (c : Char) : Prop := c = '.' ∨ ∃ d : Fin 10, c = Nat.digitChar d.val

instance : DecidablePred Opens := fun c =>
  inferInstanceAs (Decidable (c = '.' ∨ ∃ d : Fin 10, c = Nat.digitChar d.val))

/-- An unsigned number begins with no sign, and with nothing that has two cases. -/
theorem Opens.plain {c : Char} (h : Opens c) : c ≠ '-' ∧ c ≠ '+' ∧ c.toLower = c := by
  rcases h with rfl | ⟨d, rfl⟩
  · decide
  · revert d
    decide

/-- Digits begin with a digit, if there are any. -/
theorem opens_digitsText {digits : List (Fin 10)} (rest : List Char)
    (h : digits = [] → ∀ c ∈ rest.head?, Opens c) :
    ∀ c ∈ (digitsText digits ++ rest).head?, Opens c := by
  cases digits with
  | nil => exact h rfl
  | cons d digits =>
    rintro _ ⟨⟩
    exact .inr ⟨d, rfl⟩

/-- An exponent is read. -/
theorem exponent?_powerText (power : Option Power) :
    exponent? (powerText power) = some (powerOf power) := by
  cases power with
  | none => rfl
  | some power =>
    have hopens : ∀ c ∈ (digitsText power.digits).head?, Opens c := by
      have hopens := opens_digitsText [] fun hnil => absurd hnil power.nonempty
      rwa [List.append_nil] at hopens
    have hsign := spanSign_append power.sign fun c hc =>
      ⟨(hopens c hc).plain.1, (hopens c hc).plain.2.1⟩
    have hend : ∀ c ∈ ([] : List Char).head?, digit? c = none := fun _ hc => nomatch hc
    have hdigits := spanDigits_append power.digits hend
    have hne : ¬ (digitsText power.digits = [] ∨ ([] : List Char) ≠ []) := by
      simp [digitsText, power.nonempty]
    rw [List.append_nil] at hdigits
    simp only [powerText, exponent?, if_pos power.marked, hsign, hdigits, if_neg hne, natOf_zero,
      powerOf]

/-- What is read as an exponent is one. -/
theorem exists_power {text : List Char} {exponent : Int} (h : exponent? text = some exponent) :
    ∃ power, text = powerText power ∧ exponent = powerOf power := by
  cases text with
  | nil =>
    cases h
    exact ⟨none, rfl, rfl⟩
  | cons mark rest =>
    obtain ⟨sign, behind, rfl, hsign⟩ := exists_spanSign rest
    obtain ⟨digits, last, rfl, hdigits⟩ := exists_spanDigits behind
    simp only [exponent?, hsign, hdigits] at h
    obtain ⟨hmark, h⟩ := Option.ite_none_right_eq_some.mp h
    obtain ⟨hshape, hvalue⟩ := Option.ite_none_left_eq_some.mp h
    obtain ⟨hne, rfl⟩ : digits ≠ [] ∧ last = [] := by
      simpa [digitsText] using hshape
    refine ⟨some ⟨mark, hmark, sign, digits, hne⟩, ?_, ?_⟩
    · rw [powerText, List.append_nil]
    · rw [← Option.some.inj hvalue, natOf_zero]
      rfl

/-- A point with digits behind it is read, before a text that begins neither with a point nor
with a digit. -/
theorem spanFraction_append (fraction : Option (List (Fin 10))) {rest : List Char}
    (h : ∀ c ∈ rest.head?, c ≠ '.' ∧ digit? c = none) :
    spanFraction (fractionText fraction ++ rest) = (digitsText (fraction.getD []), rest) := by
  cases fraction with
  | some digits => exact spanDigits_append digits fun c hc => (h c hc).2
  | none =>
    cases rest with
    | nil => rfl
    | cons c rest =>
      exact spanFraction.eq_2 _ fun _ heq => (h c rfl).1 (List.cons.inj heq).1

/-- What is read as a point with digits behind it is that. -/
theorem exists_spanFraction (text : List Char) :
    ∃ fraction rest, text = fractionText fraction ++ rest ∧
      spanFraction text = (digitsText (fraction.getD []), rest) := by
  rcases text with _ | ⟨c, text⟩
  · exact ⟨none, [], rfl, rfl⟩
  · by_cases hpoint : c = '.'
    · obtain ⟨digits, rest, rfl, hdigits⟩ := exists_spanDigits text
      exact ⟨some digits, rest, by rw [hpoint]; rfl, by rw [hpoint]; exact hdigits⟩
    · exact ⟨none, c :: text, rfl,
        spanFraction.eq_2 _ fun _ heq => hpoint (List.cons.inj heq).1⟩

/-- An exponent begins neither with a point nor with a digit. -/
theorem head_powerText (power : Option Power) :
    ∀ c ∈ (powerText power).head?, c ≠ '.' ∧ digit? c = none := by
  cases power with
  | none => exact fun _ hc => nomatch hc
  | some power =>
    rintro _ ⟨⟩
    rcases power.marked with hmark | hmark <;> rw [hmark] <;> decide

namespace Spelling

/-- The text behind the sign begins as an unsigned number. -/
theorem opens (s : Spelling) : ∀ c ∈ s.unsigned.head?, Opens c := by
  refine opens_digitsText _ fun hwhole => ?_
  cases hfraction : s.fraction with
  | none => exact absurd rfl (hfraction ▸ s.nonempty.resolve_left (not_not_intro hwhole))
  | some digits =>
    rintro _ ⟨⟩
    exact .inl rfl

/-- The text behind the sign is read as the digits and their exponent. -/
theorem unsigned?_eq (s : Spelling) : unsigned? s.unsigned = some (s.digits, s.exponent) := by
  have hbehind : ∀ c ∈ (fractionText s.fraction ++ powerText s.power).head?, digit? c = none := by
    cases s.fraction with
    | none => exact fun c hc => (head_powerText s.power c hc).2
    | some digits =>
      rintro _ ⟨⟩
      decide
  have hne : ¬ (digitsText s.whole = [] ∧ digitsText (s.fraction.getD []) = []) := by
    simpa [digitsText, or_iff_not_imp_left] using s.nonempty
  have hdigits : digitsText s.whole ++ digitsText (s.fraction.getD []) =
      digitsText (s.whole ++ s.fraction.getD []) := List.map_append.symm
  have hlength : (digitsText (s.fraction.getD [])).length = (s.fraction.getD []).length :=
    List.length_map _
  simp only [unsigned?, unsigned, spanDigits_append s.whole hbehind,
    spanFraction_append s.fraction (head_powerText s.power), if_neg hne, exponent?_powerText,
    Option.map_some, hdigits, natOf_zero, hlength]
  rfl

/-- The text behind the sign is none of the words, which all begin with a letter. -/
theorem isWord_unsigned (s : Spelling) {word : String} {first : Char}
    (hfirst : word.toList.head? = some first) (h : ¬ Opens first) :
    isWord word s.unsigned = false := by
  refine decide_eq_false fun hword => ?_
  rw [← hword, List.head?_map, Option.map_eq_some_iff] at hfirst
  obtain ⟨c, hc, hlower⟩ := hfirst
  rw [(s.opens c hc).plain.2.2] at hlower
  exact h (hlower ▸ s.opens c hc)

/-- The text is read as the sign, the digits and their exponent. -/
theorem parse?_eq (s : Spelling) :
    parse? s.text = some (.finite s.sign.isMinus s.digits s.exponent) := by
  have hsign := spanSign_append s.sign fun c hc =>
    ⟨(s.opens c hc).plain.1, (s.opens c hc).plain.2.1⟩
  have hinf : isWord "inf" s.unsigned = false := s.isWord_unsigned rfl (by decide : ¬ Opens 'i')
  have hinfinity : isWord "infinity" s.unsigned = false :=
    s.isWord_unsigned rfl (by decide : ¬ Opens 'i')
  have hnan : isWord "nan" s.unsigned = false := s.isWord_unsigned rfl (by decide : ¬ Opens 'n')
  simp only [parse?, text, hsign, hinf, hinfinity, hnan, s.unsigned?_eq, Bool.or_self,
    Bool.false_eq_true, if_false, Option.map_some]

/-- The magnitude is the number that all digits stand for, at the place of the last one. -/
theorem magnitude_eq (s : Spelling) : s.magnitude = s.digits * 10 ^ s.exponent := by
  have hten : (10 : ℚ) ≠ 0 := by norm_num
  rw [magnitude, digits, exponent, number_append, zpow_sub₀ hten, zpow_natCast]
  push_cast
  field_simp

/-- The magnitude is not negative. -/
theorem magnitude_nonneg (s : Spelling) : 0 ≤ s.magnitude := by
  rw [magnitude_eq]
  positivity

/-- The magnitude is that of the number. -/
theorem abs_value (s : Spelling) : |s.value| = s.magnitude := by
  unfold value
  split_ifs
  · rw [abs_neg, abs_of_nonneg s.magnitude_nonneg]
  · exact abs_of_nonneg s.magnitude_nonneg

/-- Without a minus the number is all its digits at the place of the last one. -/
theorem value_eq {s : Spelling} (h : s.sign.isMinus = false) :
    s.value = s.digits * 10 ^ s.exponent := by
  rw [value, h, if_neg Bool.false_ne_true, magnitude_eq]

/-- A number is negative just if it has a minus and is not zero. -/
theorem value_neg_iff (s : Spelling) :
    s.value < 0 ↔ s.sign.isMinus = true ∧ s.magnitude ≠ 0 := by
  have hnonneg := s.magnitude_nonneg
  unfold value
  split_ifs with hminus
  · rw [neg_lt_zero, hnonneg.lt_iff_ne']
    exact (and_iff_right hminus).symm
  · exact ⟨fun h => absurd hnonneg (not_le.mpr h), fun h => absurd h.1 hminus⟩

/-- Spellings of one text stand for one number. -/
theorem value_eq_of_text {s s' : Spelling} (h : s.text = s'.text) : s.value = s'.value := by
  have hread : some (finite s.sign.isMinus s.digits s.exponent) =
      some (finite s'.sign.isMinus s'.digits s'.exponent) := by
    rw [← s.parse?_eq, h, s'.parse?_eq]
  obtain ⟨hminus, hdigits, hexponent⟩ := finite.inj (Option.some.inj hread)
  rw [value, value, magnitude_eq, magnitude_eq, hminus, hdigits, hexponent]

end Spelling

/-- What is read as an unsigned number is one, whatever sign stands before it. -/
theorem exists_unsigned {text : List Char} {digits : Nat} {exponent : Int}
    (h : unsigned? text = some (digits, exponent)) (sign : Sign) :
    ∃ s : Spelling, s.sign = sign ∧ s.unsigned = text ∧ s.digits = digits ∧
      s.exponent = exponent := by
  obtain ⟨whole, behind, rfl, hwhole⟩ := exists_spanDigits text
  obtain ⟨fraction, behind, rfl, hfraction⟩ := exists_spanFraction behind
  simp only [unsigned?, hwhole, hfraction] at h
  obtain ⟨hne, h⟩ := Option.ite_none_left_eq_some.mp h
  obtain ⟨exponent', hread, hvalue⟩ := Option.map_eq_some_iff.mp h
  obtain ⟨power, rfl, rfl⟩ := exists_power hread
  obtain ⟨rfl, rfl⟩ := Prod.mk.inj hvalue
  have hdigits : digitsText whole ++ digitsText (fraction.getD []) =
      digitsText (whole ++ fraction.getD []) := List.map_append.symm
  have hnonempty : whole ≠ [] ∨ fraction.getD [] ≠ [] := by
    simpa [digitsText, or_iff_not_imp_left] using hne
  refine ⟨⟨sign, whole, fraction, power, hnonempty⟩, rfl, rfl, ?_, ?_⟩
  · rw [hdigits, natOf_zero]
    rfl
  · rw [digitsText, List.length_map]
    rfl

/-- What is read as a finite number is one. -/
theorem exists_spelling {text : List Char} {negative : Bool} {digits : Nat} {exponent : Int}
    (h : parse? text = some (.finite negative digits exponent)) :
    ∃ s : Spelling, s.text = text ∧ s.sign.isMinus = negative ∧ s.digits = digits ∧
      s.exponent = exponent := by
  obtain ⟨sign, unsigned, rfl, hsign⟩ := exists_spanSign text
  simp only [parse?, hsign] at h
  split_ifs at h with hinf hnan
  · cases h
  · cases h
  · obtain ⟨⟨digits', exponent'⟩, hread, hvalue⟩ := Option.map_eq_some_iff.mp h
    obtain ⟨rfl, rfl, rfl⟩ := finite.inj hvalue
    obtain ⟨s, rfl, rfl, hdigits, hexponent⟩ := exists_unsigned hread sign
    exact ⟨s, rfl, rfl, hdigits, hexponent⟩

/-- The texts that are read as finite numbers are those of spellings, and what is read is the
sign, the digits and their exponent. -/
theorem parse?_eq_finite_iff {text : List Char} {negative : Bool} {digits : Nat}
    {exponent : Int} :
    parse? text = some (.finite negative digits exponent) ↔
      ∃ s : Spelling, s.text = text ∧ s.sign.isMinus = negative ∧ s.digits = digits ∧
        s.exponent = exponent := by
  refine ⟨exists_spelling, ?_⟩
  rintro ⟨s, rfl, rfl, rfl, rfl⟩
  exact s.parse?_eq

end Literal

end LineScript
