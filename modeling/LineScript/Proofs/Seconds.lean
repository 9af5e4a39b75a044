import LineScript.Proofs.Rounding
import LineScript.Proofs.Waiting

/-!
# How long is waited

The seconds of a wait are rounded to binary64 and then to a whole number of nanoseconds. Main
result: the two roundings keep the order, the seconds stay below `2 ^ 64`, and below `2 ^ 23`
seconds a whole number of nanoseconds is met exactly, in every spelling. The bound is the
greatest power of two: right above it the next nanosecond is missed.
-/

namespace LineScript

open Binary64

namespace Duration

variable {x x' : Binary64} {d d' : Duration}

/-- A duration is its whole seconds and what is left of the last one. -/
theorem nanos_eq (d : Duration) : d.nanos = d.seconds * nanosPerSecond + d.subsecond :=
  (Nat.div_add_mod' d.nanos nanosPerSecond).symm

/-- The nanoseconds of a value are rounded. -/
theorem isRounded_nanos (h : ofBinary64? x = some d) :
    IsRounded (x.units * nanosPerSecond) one d.nanos := by
  rw [ofBinary64?] at h
  split_ifs at h
  obtain ⟨nanos⟩ := d
  change IsRounded _ _ nanos
  rw [← Duration.mk.inj (Option.some.inj h)]
  exact divNearest_isRounded _ Binary64.one_pos

/-- The nanoseconds of a value, not yet rounded. -/
theorem nanos_toRat (x : Binary64) :
    ((x.units * nanosPerSecond : Nat) : ℚ) / one = x.toRat * nanosPerSecond := by
  rw [toRat, Nat.cast_mul, div_mul_eq_mul_div]

/-- A value is at most half a nanosecond away from its duration. -/
theorem abs_sub_nanos_le (h : ofBinary64? x = some d) :
    |x.toRat * nanosPerSecond - d.nanos| ≤ 1 / 2 := by
  rw [← nanos_toRat]
  exact (isRounded_nanos h).abs_sub_le_half Binary64.one_pos

/-- A value that is less than half a nanosecond away from a duration has that duration. -/
theorem ofBinary64?_eq_of_near {nanos : Nat} (hlimit : x.toRat < 2 ^ 64)
    (h : |x.toRat * nanosPerSecond - nanos| < 1 / 2) : ofBinary64? x = some ⟨nanos⟩ := by
  obtain ⟨d, hd⟩ := ofBinary64?_eq_some hlimit
  rw [← nanos_toRat] at h
  have hnanos : d.nanos = nanos := (isRounded_nanos hd).eq_of_abs_sub_lt Binary64.one_pos h
  rw [hd, ← hnanos]

/-- A greater value has no lesser duration. -/
theorem nanos_mono (h : ofBinary64? x = some d) (h' : ofBinary64? x' = some d')
    (hle : x.toRat ≤ x'.toRat) : d.nanos ≤ d'.nanos := by
  have hunits : x.units ≤ x'.units := Nat.le_of_not_lt fun hlt =>
    not_lt.mpr hle (toRat_lt_toRat.mpr hlt)
  exact (isRounded_nanos h).mono (isRounded_nanos h') Binary64.one_pos
    (Nat.mul_le_mul_right _ hunits)

/-- The value before the limit. -/
def beforeLimit : Binary64 := ⟨2 ^ 53 - 1, 1085⟩

/-- The seconds of a value are rounded to less than `2 ^ 64` whole ones. -/
theorem seconds_lt (hx : x.IsCanonical) (h : ofBinary64? x = some d) : d.seconds < 2 ^ 64 := by
  have hlimit : beforeLimit.next.units = 2 ^ 64 * one := by decide +kernel
  have hlast : beforeLimit.units * nanosPerSecond ≤ (2 ^ 64 - 1) * nanosPerSecond * one := by
    decide +kernel
  have hcanonical : beforeLimit.IsCanonical := ⟨by decide, .inr (by decide)⟩
  have hbelow : x.units < 2 ^ 64 * one := by
    rw [← toRat_lt_natCast]
    exact_mod_cast toRat_lt_of_ofBinary64? h
  have hbefore : x.units ≤ beforeLimit.units := by
    by_contra hbeyond
    have hnext := hcanonical.next_le hx (Nat.lt_of_not_le hbeyond)
    omega
  have hnanos : d.nanos ≤ (2 ^ 64 - 1) * nanosPerSecond :=
    (isRounded_nanos h).le_of_le_mul Binary64.one_pos ((Nat.mul_le_mul_right _ hbefore).trans hlast)
  exact Nat.div_lt_of_lt_mul (hnanos.trans_lt (by decide))

/-- The text of a greater number gives no lesser duration. -/
theorem nanos_le_of_value_le {s s' : Literal.Spelling} (h : parse s.text = .ok d)
    (h' : parse s'.text = .ok d') (hle : s.value ≤ s'.value) : d.nanos ≤ d'.nanos := by
  obtain ⟨x, hx, hzero, hd⟩ := parse_text_iff.mp h
  obtain ⟨x', hx', -, hd'⟩ := parse_text_iff.mp h'
  refine nanos_mono hd hd' ?_
  rcases lt_or_ge s.value 0 with hneg | hnonneg
  · rw [hzero hneg]
    exact x'.toRat_nonneg
  · refine hx.toRat_mono hx' ?_
    rw [abs_of_nonneg hnonneg, abs_of_nonneg (hnonneg.trans hle)]
    exact hle

/-- The text of a whole number of nanoseconds below `2 ^ 23` seconds gives just these. -/
theorem parse_whole_nanos {s : Literal.Spelling} {nanos : Nat}
    (hvalue : s.value = nanos / nanosPerSecond) (hbelow : s.value < 2 ^ 23) :
    parse s.text = .ok ⟨nanos⟩ := by
  have hsecond : (nanosPerSecond : ℚ) = 1000000000 := by norm_num [nanosPerSecond]
  have hnonneg : 0 ≤ s.value := by
    rw [hvalue]
    positivity
  have hnearest := isNearest_nearest nanos (by decide : 0 < nanosPerSecond)
  rw [← hvalue] at hnearest
  have hdistance := abs_le.mp (hnearest.abs_sub_toRat_le_of_le_two_pow hnonneg hbelow.le)
  have hlimit : (nearest nanos nanosPerSecond).toRat < 2 ^ 64 := by linarith
  have hnear : |(nearest nanos nanosPerSecond).toRat * nanosPerSecond - nanos| < 1 / 2 := by
    have hnanos : (nanos : ℚ) = s.value * 1000000000 := by
      rw [hvalue, hsecond, div_mul_cancel₀ _ (by norm_num)]
    rw [hnanos, hsecond, abs_lt]
    constructor <;> linarith
  refine parse_text_iff.mpr ⟨nearest nanos nanosPerSecond, ?_, fun hneg => ?_, ?_⟩
  · rwa [abs_of_nonneg hnonneg]
  · exact absurd hneg (not_lt.mpr hnonneg)
  · exact ofBinary64?_eq_of_near hlimit hnear

end Duration

namespace Directive

open Duration (nanosPerSecond)

/-- What is accepted as a wait is the text of a number, and is less than `2 ^ 64` whole seconds
and less than a second of nanoseconds. Of two numbers the greater one is no shorter wait. A
number below `2 ^ 23` that is a whole number of nanoseconds, in any spelling, is accepted as
just these. -/
theorem parseDelay_rounds :
    (∀ (argument : List Char) (d : Duration), parseDelay argument = .ok d →
      (∃ s : Literal.Spelling, s.text = argument) ∧
        d.nanos = d.seconds * nanosPerSecond + d.subsecond ∧ d.subsecond < 10 ^ 9 ∧
        d.seconds < 2 ^ 64) ∧
      (∀ (s s' : Literal.Spelling) (d d' : Duration), parseDelay s.text = .ok d →
        parseDelay s'.text = .ok d' → s.value ≤ s'.value → d.nanos ≤ d'.nanos) ∧
      ∀ (s : Literal.Spelling) (nanos : Nat), s.value = nanos / 10 ^ 9 → s.value < 2 ^ 23 →
        parseDelay s.text = .ok ⟨nanos⟩ := by
  refine ⟨fun argument d h => ?_, fun s s' d d' h h' => ?_, fun s nanos hvalue hbelow => ?_⟩
  · rw [parseDelay_eq_ok_iff] at h
    obtain ⟨s, rfl⟩ := Duration.exists_spelling h
    obtain ⟨x, hx, -, hd⟩ := Duration.parse_text_iff.mp h
    exact ⟨⟨s, rfl⟩, d.nanos_eq, Nat.mod_lt _ (by decide), Duration.seconds_lt hx.mem hd⟩
  · rw [parseDelay_eq_ok_iff] at h h'
    exact Duration.nanos_le_of_value_le h h'
  · refine parseDelay_eq_ok_iff.mpr (Duration.parse_whole_nanos ?_ hbelow)
    rw [hvalue]
    norm_num [nanosPerSecond]

/-- The last nanosecond before `2 ^ 23` seconds is met, with a plus and with zeros at the end. The
first one after them is missed, though not in the wrong direction. -/
theorem parseDelay_rounds_at_two_pow_23 :
    parseDelay "+8388607.999999999000".toList = .ok ⟨8388607999999999⟩ ∧
      parseDelay "8388608.000000001".toList = .ok ⟨8388608000000002⟩ ∧
      8388607999999999 ≤ 8388608000000002 ∧
      (⟨8388608000000002⟩ : Duration).seconds < 2 ^ 64 := by
  obtain ⟨hbounds, hmono, hexact⟩ := parseDelay_rounds
  have hlast : Literal.parse? "+8388607.999999999000".toList =
      some (.finite false 8388607999999999000 (-12)) := by decide +kernel
  have hfirst : Literal.parse? "8388608.000000001".toList =
      some (.finite false 8388608000000001 (-9)) := by decide +kernel
  obtain ⟨s, hs, hplus, hdigits, hexponent⟩ := Literal.parse?_eq_finite_iff.mp hlast
  obtain ⟨s', hs', hplus', hdigits', hexponent'⟩ := Literal.parse?_eq_finite_iff.mp hfirst
  have hvalue : s.value = (8388607999999999 : Nat) / 10 ^ 9 := by
    rw [Literal.Spelling.value_eq hplus, hdigits, hexponent]
    norm_num
  have hvalue' : s'.value = 8388608000000001 / 10 ^ 9 := by
    rw [Literal.Spelling.value_eq hplus', hdigits', hexponent']
    norm_num
  have hread : parseDelay s.text = .ok ⟨8388607999999999⟩ := by
    refine hexact s _ hvalue ?_
    rw [hvalue]
    norm_num
  have hread' : parseDelay s'.text = .ok ⟨8388608000000002⟩ := by
    rw [hs']
    decide +kernel
  have horder : s.value ≤ s'.value := by
    rw [hvalue, hvalue']
    norm_num
  exact ⟨hs ▸ hread, hs' ▸ hread', hmono _ _ _ _ hread hread' horder,
    (hbounds _ _ hread').2.2.2⟩

end Directive

end LineScript
