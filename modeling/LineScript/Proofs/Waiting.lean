import LineScript.Proofs.Course
import LineScript.Proofs.Nearest
import LineScript.Proofs.Numerals
import LineScript.Proofs.RoundTrip

/-!
# Which waits are accepted

The argument of a wait is rounded to binary64 before it is looked at whether it is below zero
or too large. Small exponents are rounded to zero and large ones refused unexpanded, which
makes no difference. Main result: an argument is accepted just if it is the text of a finite
number whose nearest value is below `2 ^ 64` seconds, and is zero if the number is negative;
with any other argument the line is passed over and nothing but a warning happens.
-/

namespace LineScript

open Binary64

namespace Literal

/-- An exponent so small that the value is not expanded leaves at most half a unit. -/
theorem small_exponent {digits : Nat} {exponent : Int} (h : exponent + digits.log2 < -400) :
    2 * ((digits : ℚ) * 10 ^ exponent) * one ≤ 1 := by
  obtain ⟨places, rfl⟩ : ∃ places : Nat, exponent = -places := ⟨(-exponent).toNat, by omega⟩
  have hplaces : digits.log2 + 201 + 200 ≤ places := by omega
  have hunits : 4 * one ≤ 10 ^ 201 * 10 ^ 200 := by decide +kernel
  have hwhole : 2 * digits * one ≤ 10 ^ places :=
    calc 2 * digits * one ≤ 2 * 2 ^ (digits.log2 + 1) * one :=
          Nat.mul_le_mul_right one (Nat.mul_le_mul_left 2 Nat.lt_log2_self.le)
      _ = 2 ^ digits.log2 * (4 * one) := by rw [Nat.pow_succ]; ring
      _ ≤ 10 ^ digits.log2 * (10 ^ 201 * 10 ^ 200) :=
          Nat.mul_le_mul (Nat.pow_le_pow_left (by decide) _) hunits
      _ = 10 ^ (digits.log2 + 201 + 200) := by rw [Nat.pow_add, Nat.pow_add, Nat.mul_assoc]
      _ ≤ 10 ^ places := Nat.pow_le_pow_right (by decide) hplaces
  have hten : (0 : ℚ) < 10 ^ places := by positivity
  have hcast : (2 : ℚ) * digits * one ≤ 10 ^ places := by exact_mod_cast hwhole
  rw [zpow_neg, zpow_natCast]
  calc 2 * ((digits : ℚ) * (10 ^ places)⁻¹) * one = 2 * digits * one / 10 ^ places := by
        rw [div_eq_mul_inv]
        ring
    _ ≤ 1 := (div_le_one hten).mpr hcast

/-- What a finite number is rounded to is nearest to it. -/
theorem isNearest_nearest? {digits : Nat} {exponent : Int} {x : Binary64}
    (h : nearest? digits exponent = some x) :
    IsNearest IsCanonical ((digits : ℚ) * 10 ^ exponent) x := by
  unfold nearest? at h
  split_ifs at h with hsmall hlarge hwhole
  · cases h
    refine isNearest_zero (by positivity) ?_
    rcases hsmall with rfl | hsmall
    · rw [Nat.cast_zero, zero_mul, mul_zero, zero_mul]
      exact zero_le_one
    · exact small_exponent hsmall
  · obtain ⟨places, rfl⟩ := Int.eq_ofNat_of_zero_le hwhole
    cases h
    have hnearest := isNearest_nearest (digits * 10 ^ places) Nat.one_pos
    rwa [Nat.cast_one, div_one, Nat.cast_mul, Nat.cast_pow, ← zpow_natCast] at hnearest
  · obtain ⟨places, rfl⟩ : ∃ places : Nat, exponent = -places := ⟨(-exponent).toNat, by omega⟩
    cases h
    have hnearest := isNearest_nearest digits (Nat.pow_pos (Nat.succ_pos 9) : 0 < 10 ^ places)
    rw [Nat.cast_pow, div_eq_mul_inv, ← zpow_natCast, ← zpow_neg] at hnearest
    rwa [neg_neg, Int.toNat_natCast]

/-- A finite number that is not rounded is not below the limit. -/
theorem limit_le_of_nearest?_eq_none {digits : Nat} {exponent : Int}
    (h : nearest? digits exponent = none) : limit.toRat ≤ (digits : ℚ) * 10 ^ exponent := by
  unfold nearest? at h
  split_ifs at h with hsmall hlarge
  have hdigits : 1 ≤ digits := Nat.one_le_iff_ne_zero.mpr fun hzero => hsmall (.inl hzero)
  obtain ⟨places, rfl⟩ := Int.eq_ofNat_of_zero_le (by omega : 0 ≤ exponent)
  have hplaces : 20 ≤ places := by omega
  have hwhole : 2 ^ 64 ≤ digits * 10 ^ places :=
    calc 2 ^ 64 ≤ 1 * 10 ^ 20 := by decide
      _ ≤ digits * 10 ^ places :=
        Nat.mul_le_mul hdigits (Nat.pow_le_pow_right (by decide) hplaces)
  rw [toRat_limit]
  exact_mod_cast hwhole

end Literal

namespace Duration

/-- A value below the limit is a duration. -/
theorem ofBinary64?_eq_some {x : Binary64} (h : x.toRat < 2 ^ 64) :
    ∃ d, ofBinary64? x = some d := by
  have hunits : x.units < Nat.pow 2 64 * one := by
    rw [← toRat_lt_natCast]
    exact_mod_cast h
  exact ⟨_, if_pos hunits⟩

/-- What is a duration is below the limit. -/
theorem toRat_lt_of_ofBinary64? {x : Binary64} {d : Duration} (h : ofBinary64? x = some d) :
    x.toRat < 2 ^ 64 := by
  rw [ofBinary64?] at h
  split_ifs at h with hunits
  rw [← toRat_lt_natCast] at hunits
  exact_mod_cast hunits

/-- A finite number gives the duration of its nearest value, which is zero under a minus. -/
theorem ofLiteral_finite_iff {negative : Bool} {digits : Nat} {exponent : Int} {d : Duration} :
    ofLiteral (.finite negative digits exponent) = .ok d ↔
      ∃ x, IsNearest IsCanonical ((digits : ℚ) * 10 ^ exponent) x ∧
        (negative = true → x.toRat = 0) ∧ ofBinary64? x = some d := by
  cases hread : Literal.nearest? digits exponent with
  | none =>
    have hlarge := Literal.limit_le_of_nearest?_eq_none hread
    constructor
    · intro h
      simp only [ofLiteral, hread] at h
      cases h
    · rintro ⟨x, hx, -, hd⟩
      have hbelow := toRat_lt_of_ofBinary64? hd
      rw [← toRat_limit] at hbelow
      exact absurd (hx.toRat_le_toRat isFinite_limit.toIsCanonical hlarge) (not_le.mpr hbelow)
  | some x =>
    have hx := Literal.isNearest_nearest? hread
    constructor
    · intro h
      simp only [ofLiteral, hread] at h
      split_ifs at h with hnegative
      refine ⟨x, hx, fun hminus => ?_, ?_⟩
      · exact toRat_eq_zero_iff.mpr (not_not.mp fun hne => hnegative ⟨hminus, hne⟩)
      · cases hd : ofBinary64? x with
        | none =>
          rw [hd] at h
          cases h
        | some d' =>
          rw [hd] at h
          cases h
          rfl
    · rintro ⟨y, hy, hzero, hd⟩
      obtain rfl := hx.unique hy
      have hnegative : ¬ (negative = true ∧ x.mantissa ≠ 0) := fun h =>
        h.2 (toRat_eq_zero_iff.mp (hzero h.1))
      simp only [ofLiteral, hread, if_neg hnegative, hd]

/-- The text of a number gives the duration of its nearest value, which is zero if the number is
negative. -/
theorem parse_text_iff {s : Literal.Spelling} {d : Duration} :
    parse s.text = .ok d ↔
      ∃ x, IsNearest IsCanonical |s.value| x ∧ (s.value < 0 → x.toRat = 0) ∧
        ofBinary64? x = some d := by
  rw [parse, s.parse?_eq]
  refine ofLiteral_finite_iff.trans (exists_congr fun x => ?_)
  rw [← s.magnitude_eq, ← s.abs_value]
  refine and_congr_right fun hx => and_congr_left' ⟨fun hzero hneg => ?_, fun hzero hminus => ?_⟩
  · exact hzero (s.value_neg_iff.mp hneg).1
  · by_cases hnone : s.magnitude = 0
    · -- A zero under a minus is not negative, but its own nearest value.
      rw [s.abs_value, hnone] at hx
      have hzero : IsCanonical ⟨0, 0⟩ := ⟨by decide, .inl rfl⟩
      exact hx.toRat_eq hzero (toRat_eq_zero_iff.mpr rfl)
    · exact hzero (s.value_neg_iff.mpr ⟨hminus, hnone⟩)

/-- What is a duration is the text of a number. -/
theorem exists_spelling {text : List Char} {d : Duration} (h : parse text = .ok d) :
    ∃ s : Literal.Spelling, s.text = text := by
  cases hread : Literal.parse? text with
  | none =>
    rw [parse, hread] at h
    cases h
  | some literal =>
    rw [parse, hread] at h
    cases literal with
    | infinite negative => cases h
    | notANumber => cases h
    | finite negative digits exponent =>
      obtain ⟨s, htext, -⟩ := Literal.parse?_eq_finite_iff.mp hread
      exact ⟨s, htext⟩

/-- Whether a text is that of a finite number whose nearest binary64 value is below `2 ^ 64`, and
is zero if the number is negative. -/
def IsWait (text : List Char) : Prop :=
  ∃ (s : Literal.Spelling) (x : Binary64), s.text = text ∧ IsNearest IsFinite |s.value| x ∧
    x.toRat < 2 ^ 64 ∧ (s.value < 0 → x.toRat = 0)

/-- The texts that are durations are those of waits. -/
theorem parse_ok_iff {text : List Char} : (∃ d, parse text = .ok d) ↔ IsWait text := by
  constructor
  · rintro ⟨d, h⟩
    obtain ⟨s, rfl⟩ := exists_spelling h
    obtain ⟨x, hx, hzero, hd⟩ := parse_text_iff.mp h
    have hbelow := toRat_lt_of_ofBinary64? hd
    exact ⟨s, x, rfl, (isNearest_isFinite_iff hbelow).mpr hx, hbelow, hzero⟩
  · rintro ⟨s, x, rfl, hx, hbelow, hzero⟩
    obtain ⟨d, hd⟩ := ofBinary64?_eq_some hbelow
    exact ⟨d, parse_text_iff.mpr ⟨x, (isNearest_isFinite_iff hbelow).mp hx, hzero, hd⟩⟩

end Duration

/-- The books once a line was passed over: nothing but counters moves. -/
def Books.passLine (books : Books) : Books :=
  { books with
    report :=
      { books.report with
        lines := books.report.lines + 1
        warnings := books.report.warnings + 1 } }

namespace Runner

/-- A line with an unusable directive is warned of, and nothing else happens: no party is
called, and only counters move. -/
theorem runLine_malformed {β σ : Type} (r : Runner β σ) {line : Line} {s : RunState β σ}
    {reason : FormatError} (h : Directive.classify line.text s.core.skipping = .error reason) :
    ∃ s', r.Does (r.runLine line) s [.warn (.malformed line reason)] (.ok ()) s' ∧
      s'.parties = s.parties ∧ s'.books = s.books.passLine := by
  obtain ⟨events, result, s', hline⟩ := r.runLine_follows line s
  have hstep : s.core.step line.text = (.malformed reason, s.core) := by
    rw [Core.step, h]
  have hread : (s.books.readLine line.text).countWarning = s.books.passLine := by
    have hcore : (s.books.core.step line.text).2 = s.books.core := congrArg Prod.snd hstep
    rw [Books.readLine, hcore]
    rfl
  have hrule := hline.rule
  rw [hstep] at hrule
  generalize hbooks : s'.books = books at hrule
  cases hrule
  exact ⟨s', hline.does, hline.does.answered.2.symm, hbooks.trans hread⟩

end Runner

namespace Directive

open Duration (IsWait)

/-- An argument is accepted as the duration it is; none at all is no duration either. -/
theorem parseDelay_eq_ok_iff {argument : List Char} {duration : Duration} :
    parseDelay argument = .ok duration ↔ Duration.parse argument = .ok duration := by
  cases argument with
  | nil =>
    have hmissing : Duration.parse [] = .error .malformed := by decide
    rw [hmissing]
    exact ⟨nofun, nofun⟩
  | cons c argument =>
    cases hread : Duration.parse (c :: argument) with
    | ok duration' =>
      rw [parseDelay, hread]
      exact ⟨fun h => congrArg _ (Except.ok.inj h), fun h => congrArg _ (Except.ok.inj h)⟩
    | error cause =>
      rw [parseDelay, hread]
      exact ⟨nofun, nofun⟩

/-- The arguments that are accepted are the texts of waits. -/
theorem parseDelay_ok_iff {argument : List Char} :
    (∃ duration, parseDelay argument = .ok duration) ↔ IsWait argument :=
  (exists_congr fun _ => parseDelay_eq_ok_iff).trans Duration.parse_ok_iff

/-- A line whose first word is that of a wait asks for what its argument says. -/
theorem classify_delay {text : String} {argument : List Char}
    (h : splitKeyword text.toList = ("DELAY".toList, argument)) :
    classify text false = (parseDelay argument).map .delay := by
  obtain ⟨gap, hline, -⟩ := splitKeyword_eq h
  have hbegins (marker : Char) (rest : List Char) (hmarker : marker ≠ 'D') :
      ¬ marker :: rest <+: text.toList := by
    rw [hline]
    exact fun hprefix => hmarker (List.cons_prefix_cons.mp hprefix).1
  have hne : text.toList ≠ [] := by
    rw [hline]
    exact List.cons_ne_nil _ _
  have hcomment : text.toList.head? ≠ some '#' := by
    rw [hline]
    exact fun hhead => absurd (Option.some.inj hhead) (by decide : 'D' ≠ '#')
  rw [classify, classifyChars_of_words (hbegins 'E' _ (by decide)) (hbegins 'S' _ (by decide)) hne
    hcomment, ofWords, h]
  rfl

/-- An argument is accepted just if it is the text of a finite number whose nearest binary64
value is below `2 ^ 64`, and is zero if the number is negative. Any other one is unusable: the
line, which is not skipped anyway, is warned of, and nothing else happens, so that nobody
waits. -/
theorem parseDelay_accepts (argument : List Char) :
    ((∃ duration, parseDelay argument = .ok duration) ↔ IsWait argument) ∧
      (¬ IsWait argument → ∃ reason, parseDelay argument = .error reason ∧
        ∀ {β σ : Type} (r : Runner β σ) (line : Line) (s : RunState β σ),
          splitKeyword line.text.toList = ("DELAY".toList, argument) → s.core.skipping = false →
            ∃ s', r.Does (r.runLine line) s [.warn (.malformed line reason)] (.ok ()) s' ∧
              s'.parties = s.parties ∧ s'.books = s.books.passLine) := by
  refine ⟨parseDelay_ok_iff, fun hrefused => ?_⟩
  cases hread : parseDelay argument with
  | ok duration => exact absurd (parseDelay_ok_iff.mp ⟨duration, hread⟩) hrefused
  | error reason =>
    refine ⟨reason, rfl, fun r line s hline hskipping => r.runLine_malformed ?_⟩
    rw [hskipping, classify_delay hline, hread]
    rfl

/-- A negative number that is not rounded to zero is no wait. -/
theorem parseDelay_accepts_minus_one :
    ∃ s', Runner.planned.Does (Runner.planned.runLine ⟨1, "DELAY -1"⟩) (RunState.planned [])
        [.warn (.malformed ⟨1, "DELAY -1"⟩ (.delayInvalid "-1" .negative))] (.ok ()) s' ∧
      s'.parties = (RunState.planned []).parties := by
  have hread : parseDelay "-1".toList = .error (.delayInvalid "-1" .negative) := by
    decide +kernel
  obtain ⟨haccepts, hrefuses⟩ := parseDelay_accepts "-1".toList
  have hrefused : ¬ IsWait "-1".toList := fun hwait => by
    obtain ⟨duration, hduration⟩ := haccepts.mpr hwait
    rw [hread] at hduration
    cases hduration
  obtain ⟨reason, hreason, hruns⟩ := hrefuses hrefused
  rw [hread] at hreason
  cases hreason
  obtain ⟨s', hdoes, hparties, -⟩ := hruns Runner.planned ⟨1, "DELAY -1"⟩ (RunState.planned [])
    (by decide) rfl
  exact ⟨s', hdoes, hparties⟩

/-- A number that is written with a minus and rounded to zero before its sign is looked at. -/
def tinyNegative : Literal.Spelling :=
  ⟨.minus, [1], none, some ⟨'e', .inl rfl, .minus, [4, 0, 0], by decide⟩, by decide⟩

/-- A negative number is accepted if it is small enough, though it is no text of a number that
is not negative. -/
theorem parseDelay_of_tiny_negative :
    (∃ duration, parseDelay "-1e-400".toList = .ok duration) ∧
      ¬ ∃ (s : Literal.Spelling) (x : Binary64), s.text = "-1e-400".toList ∧ 0 ≤ s.value ∧
        IsNearest IsFinite s.value x ∧ x.toRat < 2 ^ 64 := by
  have hread : parseDelay "-1e-400".toList = .ok ⟨0⟩ := by decide +kernel
  have htiny : tinyNegative.value < 0 := by
    have hdigits : tinyNegative.digits ≠ 0 := by decide
    rw [Literal.Spelling.value_neg_iff, Literal.Spelling.magnitude_eq]
    exact ⟨rfl, by positivity⟩
  refine ⟨⟨_, hread⟩, ?_⟩
  rintro ⟨s, -, htext, hvalue, -⟩
  have hsame : s.text = tinyNegative.text := htext.trans (by decide)
  rw [Literal.Spelling.value_eq_of_text hsame] at hvalue
  exact absurd hvalue (not_le.mpr htiny)

end Directive

end LineScript
