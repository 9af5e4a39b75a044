import LineScript.Proofs.Numerals
import LineScript.Proofs.Shortest

/-!
# Decimals as text

However a decimal is set out, what comes out is the text of a number: with zeros at the end, with
a point among its digits or in front of them, or with one digit in front of the point and an
exponent. Main result: in every layout that number is the decimal.
-/

namespace LineScript

namespace Literal

/-- The text of digits in a row. -/
theorem digitsText_append (first second : List (Fin 10)) :
    digitsText (first ++ second) = digitsText first ++ digitsText second := List.map_append

/-- Zeros stand for nothing. -/
theorem number_zeros (count : Nat) : number (List.replicate count 0) = 0 := by
  induction count with
  | zero => rfl
  | succ count ih =>
    rw [List.replicate_succ', number_append, ih, Nat.zero_mul, Nat.zero_add]
    rfl

/-- A whole number is written in digits that stand for it. -/
theorem exists_digits (n : Nat) :
    ∃ digits : List (Fin 10), digits ≠ [] ∧ Nat.toDigits 10 n = digitsText digits ∧
      number digits = n := by
  induction n using Nat.strong_induction_on with
  | _ n ih =>
    rw [Nat.toDigits_eq_if (by decide)]
    by_cases hsmall : n < 10
    · rw [if_pos hsmall]
      refine ⟨[⟨n, hsmall⟩], List.cons_ne_nil _ _, rfl, ?_⟩
      simp [number]
    · obtain ⟨digits, -, htext, hnumber⟩ := ih (n / 10) (by omega)
      refine ⟨digits ++ [⟨n % 10, Nat.mod_lt n (by decide)⟩], ?_, ?_, ?_⟩
      · exact List.append_ne_nil_of_right_ne_nil _ (List.cons_ne_nil _ _)
      · rw [if_neg hsmall, htext, digitsText_append]
        rfl
      · rw [number_append, hnumber]
        simp [number, Nat.div_add_mod']

/-- An exponent is written with a minus if it is negative, and without a sign otherwise. -/
theorem exists_power_text (exponent : Int) :
    ∃ power : Power, powerText (some power) = 'e' :: (toString exponent).toList ∧
      powerOf (some power) = exponent := by
  cases exponent with
  | ofNat n =>
    obtain ⟨digits, hne, htext, hnumber⟩ := exists_digits n
    have hwritten : (toString (Int.ofNat n)).toList = digitsText digits := by
      rw [← htext]
      simp [Int.toString_eq_repr, Int.repr_eq_if, Nat.repr_eq_ofList_toDigits]
    refine ⟨⟨'e', .inl rfl, .absent, digits, hne⟩, congrArg _ hwritten.symm, ?_⟩
    exact congrArg Int.ofNat hnumber
  | negSucc n =>
    obtain ⟨digits, hne, htext, hnumber⟩ := exists_digits (n + 1)
    have hwritten : (toString (Int.negSucc n)).toList = '-' :: digitsText digits := by
      rw [← htext]
      simp [Int.toString_eq_repr, Int.repr_eq_if, Nat.repr_eq_ofList_toDigits]
    refine ⟨⟨'e', .inl rfl, .minus, digits, hne⟩, congrArg _ hwritten.symm, ?_⟩
    exact congrArg (fun k : Nat => -(k : Int)) hnumber

end Literal

namespace Decimal

open Literal

variable {d : Decimal}

/-- A text is that of the number of a decimal. -/
def IsTextOf (d : Decimal) (text : List Char) : Prop :=
  ∃ s : Spelling, s.text = text ∧ s.value = d.toRat

/-- Digits stand for a decimal if they end in so many zeros after its digits as their last place is
below its own. -/
theorem isTextOf_of_digits (whole : List (Fin 10)) (fraction : Option (List (Fin 10)))
    (power : Option Power) (hne : whole ≠ []) (zeros : Nat)
    (hdigits : number (whole ++ fraction.getD []) = d.digits * 10 ^ zeros)
    (hexponent : powerOf power - (fraction.getD []).length = d.exponent - zeros) :
    d.IsTextOf (digitsText whole ++ (fractionText fraction ++ powerText power)) := by
  have hten : (10 : ℚ) ≠ 0 := by norm_num
  refine ⟨⟨.absent, whole, fraction, power, .inl hne⟩, rfl, ?_⟩
  rw [Spelling.value_eq rfl, Spelling.digits, Spelling.exponent, hdigits, hexponent, toRat,
    zpow_sub₀ hten, zpow_natCast]
  push_cast
  field_simp

/-- The text of a decimal's digits. -/
theorem exists_digits_text (d : Decimal) :
    ∃ digits : List (Fin 10), digits ≠ [] ∧ d.text = digitsText digits ∧
      d.text.length = digits.length ∧ number digits = d.digits := by
  obtain ⟨digits, hne, htext, hnumber⟩ := exists_digits d.digits
  refine ⟨digits, hne, htext, ?_, hnumber⟩
  rw [text, htext, digitsText, List.length_map]

/-- Zeros for the places up to the ones, and one behind the point if the layout wants it. -/
theorem isTextOf_whole (h : 0 ≤ d.exponent) (wholeMark : Bool) :
    d.IsTextOf (d.text ++ List.replicate d.exponent.toNat '0' ++
      (if wholeMark then ['.', '0'] else [])) := by
  obtain ⟨digits, hne, htext, -, hnumber⟩ := d.exists_digits_text
  have hzeros : d.text ++ List.replicate d.exponent.toNat '0' =
      digitsText (digits ++ List.replicate d.exponent.toNat 0) := by
    rw [digitsText_append, ← htext, digitsText, List.map_replicate]
    rfl
  have hshifted : number (digits ++ List.replicate d.exponent.toNat 0) =
      d.digits * 10 ^ d.exponent.toNat := by
    rw [number_append, number_zeros, hnumber, List.length_replicate, Nat.add_zero]
  have hsome : digits ++ List.replicate d.exponent.toNat 0 ≠ [] :=
    List.append_ne_nil_of_left_ne_nil hne _
  rw [hzeros]
  cases wholeMark with
  | false =>
    refine isTextOf_of_digits _ none none hsome d.exponent.toNat ?_ ?_
    · rw [Option.getD_none, List.append_nil, hshifted]
    · simp [powerOf, h]
  | true =>
    refine isTextOf_of_digits _ (some [0]) none hsome (d.exponent.toNat + 1) ?_ ?_
    · rw [Option.getD_some, number_append, hshifted, pow_succ, ← Nat.mul_assoc]
      rfl
    · simp [powerOf, h]

/-- A point among the digits. -/
theorem isTextOf_mixed (hplace : 0 < d.place) (hexponent : d.exponent < 0) :
    d.IsTextOf (d.text.take d.place.toNat ++ '.' :: d.text.drop d.place.toNat) := by
  obtain ⟨digits, hne, htext, hlength, hnumber⟩ := d.exists_digits_text
  rw [place, hlength] at hplace ⊢
  rw [htext, digitsText, ← List.map_take, ← List.map_drop]
  have hwhole : digits.take (digits.length + d.exponent).toNat ≠ [] := by
    rw [ne_eq, List.take_eq_nil_iff, not_or]
    exact ⟨by omega, hne⟩
  have hdigits : number (digits.take (digits.length + d.exponent).toNat ++
      (some (digits.drop (digits.length + d.exponent).toNat)).getD []) = d.digits * 10 ^ 0 := by
    rw [Option.getD_some, List.take_append_drop, hnumber, pow_zero, mul_one]
  have hbehind : powerOf none -
      ((some (digits.drop (digits.length + d.exponent).toNat)).getD []).length =
        d.exponent - (0 : Nat) := by
    rw [Option.getD_some, List.length_drop, powerOf]
    omega
  have hread := isTextOf_of_digits _ _ none hwhole 0 hdigits hbehind
  rwa [powerText, List.append_nil] at hread

/-- Zeros behind the point, in front of the digits. -/
theorem isTextOf_small (hplace : d.place ≤ 0) :
    d.IsTextOf (['0', '.'] ++ List.replicate (-d.place).toNat '0' ++ d.text) := by
  obtain ⟨digits, -, htext, hlength, hnumber⟩ := d.exists_digits_text
  have hzeros : List.replicate (-d.place).toNat '0' ++ d.text =
      digitsText (List.replicate (-d.place).toNat 0 ++ digits) := by
    rw [digitsText_append, ← htext, digitsText, List.map_replicate]
    rfl
  have hnothing : number [0] = 0 := number_zeros 1
  have hdigits : number ([0] ++ (some (List.replicate (-d.place).toNat 0 ++ digits)).getD []) =
      d.digits * 10 ^ 0 := by
    rw [Option.getD_some, number_append, number_append, number_zeros, hnumber, hnothing]
    ring
  have hbehind : powerOf none -
      ((some (List.replicate (-d.place).toNat 0 ++ digits)).getD []).length =
        d.exponent - (0 : Nat) := by
    rw [Option.getD_some, List.length_append, List.length_replicate, powerOf, ← hlength]
    rw [place] at hplace ⊢
    omega
  have hread := isTextOf_of_digits _ _ none (List.cons_ne_nil 0 []) 0 hdigits hbehind
  rw [powerText, List.append_nil, fractionText, ← hzeros] at hread
  rwa [List.append_assoc]

/-- One digit in front of the point, and an exponent. -/
theorem isTextOf_scientificText (d : Decimal) : d.IsTextOf d.scientificText := by
  obtain ⟨digits, hne, htext, hlength, hnumber⟩ := d.exists_digits_text
  obtain ⟨power, hpower, hexponent⟩ := exists_power_text (d.place - 1)
  obtain ⟨first, rest, rfl⟩ := List.exists_cons_of_ne_nil hne
  have hplace : d.place - 1 = d.exponent + rest.length := by
    rw [place, hlength, List.length_cons]
    omega
  rw [scientificText, htext, ← hpower]
  cases rest with
  | nil =>
    refine isTextOf_of_digits [first] none (some power) hne 0 ?_ ?_
    · rw [Option.getD_none, List.append_nil, hnumber, pow_zero, mul_one]
    · rw [Option.getD_none, hexponent, hplace]
      simp
  | cons second rest =>
    refine isTextOf_of_digits [first] (some (second :: rest)) (some power) (List.cons_ne_nil _ _) 0
      ?_ ?_
    · rw [Option.getD_some, List.singleton_append, hnumber, pow_zero, mul_one]
    · rw [Option.getD_some, hexponent, hplace]
      simp

/-- Without an exponent a decimal is written as the text of its number. -/
theorem isTextOf_positionalText (d : Decimal) (wholeMark : Bool) :
    d.IsTextOf (d.positionalText wholeMark) := by
  rw [positionalText]
  by_cases hwhole : 0 ≤ d.exponent
  · rw [if_pos hwhole]
    exact isTextOf_whole hwhole wholeMark
  · rw [if_neg hwhole]
    by_cases hplace : 0 < d.place
    · rw [if_pos hplace]
      exact isTextOf_mixed hplace (Int.not_le.mp hwhole)
    · rw [if_neg hplace]
      exact isTextOf_small (Int.not_lt.mp hplace)

/-- In every layout a decimal is written as the text of its number. -/
theorem isTextOf_render (layout : Layout) (d : Decimal) :
    d.IsTextOf (d.render layout).toList := by
  rw [render, String.toList_ofList]
  split_ifs
  · exact d.isTextOf_positionalText layout.wholeMark
  · exact d.isTextOf_scientificText

end Decimal

end LineScript
