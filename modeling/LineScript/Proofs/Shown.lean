import LineScript.Proofs.DryRun
import LineScript.Proofs.Grammar
import LineScript.Proofs.Layouts
import LineScript.Proofs.Seconds

/-!
# A wait that is shown is the wait that is read

The seconds that are shown are the binary64 sum of a duration's whole seconds and of the rest, as
the shortest decimal. Up to `2 ^ 23` seconds a value next to a whole number of nanoseconds is
nearer to it than half a nanosecond; from there on the values that durations are read from are so
far apart that the sum is the very value that the duration was rounded from. Main result: the
seconds in a transcript and those in a listing are read as the wait that they were written for.
-/

namespace LineScript

open Binary64

namespace Duration

variable {x : Binary64} {d : Duration}

/-- The nanoseconds in a second. -/
theorem cast_nanosPerSecond : (nanosPerSecond : ℚ) = 1000000000 := by
  norm_num [nanosPerSecond]

/-- There are nanoseconds in a second. -/
theorem cast_nanosPerSecond_pos : (0 : ℚ) < nanosPerSecond := by
  rw [cast_nanosPerSecond]
  norm_num

/-- A duration in seconds. -/
theorem nanos_div (d : Duration) :
    (d.nanos : ℚ) / nanosPerSecond = d.seconds + d.subsecond / nanosPerSecond := by
  rw [d.nanos_eq, Nat.cast_add, Nat.cast_mul, add_div,
    mul_div_cancel_right₀ _ cast_nanosPerSecond_pos.ne']

/-- The seconds of a duration that is not too long are rounded from a number next to them. -/
theorem exists_isNearest_toBinary64 (h : d.seconds ≤ 2 ^ 53) :
    ∃ q : ℚ, IsNearest IsCanonical q d.toBinary64 ∧ d.seconds ≤ q ∧ q ≤ d.seconds + 1 ∧
      (d.subsecond = 0 → q = d.seconds) ∧ |q - d.nanos / nanosPerSecond| ≤ 1 / 2 ^ 54 := by
  have hrest := isNearest_nearest d.subsecond (by decide : 0 < nanosPerSecond)
  have hsum := isNearest_add (nearest d.seconds 1) (nearest d.subsecond nanosPerSecond)
  rw [(isNearest_natCast d.seconds).toRat_eq_natCast h] at hsum
  have hless : d.subsecond < nanosPerSecond := Nat.mod_lt _ (by decide)
  have hbelow : (d.subsecond : ℚ) / nanosPerSecond ≤ 1 :=
    (div_le_one cast_nanosPerSecond_pos).mpr (by exact_mod_cast hless.le)
  have hdistance := hrest.abs_sub_toRat_le_of_le_two_pow (k := 0) (by positivity) (by simpa)
  refine ⟨_, hsum, ?_, ?_, fun hzero => ?_, ?_⟩
  · linarith [(nearest d.subsecond nanosPerSecond).toRat_nonneg]
  · have hone := isNearest_natCast 1
    have hle := hrest.toRat_mono hone (by exact_mod_cast hbelow)
    rw [hone.toRat_eq_natCast (by decide), Nat.cast_one] at hle
    linarith
  · rw [hzero, Nat.cast_zero, zero_div] at hrest
    rw [hzero, IsNearest.toRat_eq_natCast (n := 0) (by exact_mod_cast hrest) (by decide)]
    simp
  · rw [nanos_div, add_sub_add_left_eq_sub, abs_sub_comm]
    simpa using hdistance

/-- Up to `2 ^ 23` seconds a duration is nearest to its seconds. -/
theorem ofBinary64?_toBinary64_of_le (h : d.nanos ≤ 2 ^ 23 * nanosPerSecond) :
    ofBinary64? d.toBinary64 = some d := by
  have hparts := d.nanos_eq
  have hseconds : d.seconds ≤ 2 ^ 23 := Nat.div_le_of_le_mul (h.trans_eq (Nat.mul_comm _ _))
  obtain ⟨q, hq, hlow, hhigh, hwhole, hnear⟩ :=
    d.exists_isNearest_toBinary64 (hseconds.trans (by decide))
  -- The last second has no nanosecond left, so that no sum is above the bound.
  have hbound : q ≤ 2 ^ 23 := by
    rcases hseconds.eq_or_lt with hlast | hless
    · have hnone : d.subsecond = 0 := by
        rw [hlast] at hparts
        omega
      rw [hwhole hnone, hlast]
      norm_num
    · have hnext : (d.seconds : ℚ) + 1 ≤ 2 ^ 23 := by exact_mod_cast hless
      exact hhigh.trans hnext
  have hnonneg : 0 ≤ q := (Nat.cast_nonneg _).trans hlow
  have hround := abs_le.mp (hq.abs_sub_toRat_le_of_le_two_pow hnonneg hbound)
  rw [cast_nanosPerSecond] at hnear
  have hnear' := abs_le.mp hnear
  refine ofBinary64?_eq_of_near (by linarith) ?_
  rw [cast_nanosPerSecond, abs_lt]
  constructor <;> linarith

/-- A value that is a whole number is the seconds of its duration. -/
theorem toBinary64_eq_of_whole {n : Nat} (hx : x.IsCanonical) (hd : ofBinary64? x = some d)
    (h : x.units = n * one) : d.toBinary64 = x := by
  have hunits : x.units * nanosPerSecond = n * nanosPerSecond * one := by
    rw [h, Nat.mul_right_comm]
  have hrounded := isRounded_nanos hd
  rw [hunits] at hrounded
  have hnanos : d.nanos = n * nanosPerSecond :=
    le_antisymm (hrounded.le_of_le_mul Binary64.one_pos le_rfl)
      (hrounded.le_of_mul_le Binary64.one_pos le_rfl)
  have hseconds : d.seconds = n := by
    rw [seconds, hnanos, Nat.mul_div_cancel _ (by decide)]
  have hsubsecond : d.subsecond = 0 := by
    rw [subsecond, hnanos, Nat.mul_mod_left]
  have hvalue : x.toRat = n := by
    rw [toRat, h, Nat.cast_mul,
      mul_div_cancel_right₀ _ (Nat.cast_ne_zero.mpr Binary64.one_pos.ne')]
  have hself := hx.isNearest_toRat
  rw [hvalue] at hself
  have hwhole : nearest n 1 = x := (isNearest_natCast n).unique hself
  have hnone : (nearest 0 nanosPerSecond).toRat = 0 := by
    have hzero := isNearest_nearest 0 (by decide : 0 < nanosPerSecond)
    rw [Nat.cast_zero, zero_div] at hzero
    exact_mod_cast IsNearest.toRat_eq_natCast (n := 0) (by exact_mod_cast hzero) (by decide)
  have hsum := isNearest_add x (nearest 0 nanosPerSecond)
  rw [hnone, add_zero, hvalue] at hsum
  rw [toBinary64, hseconds, hsubsecond, hwhole]
  exact hsum.unique hself

/-- From `2 ^ 23` on, the scale of a value that is no whole number is between that of `2 ^ -29` and
that of one, and its mantissa is not the least one. -/
theorem scale_of_not_whole (hx : x.IsCanonical) (hbig : 2 ^ 23 ≤ x.toRat)
    (hwhole : ∀ n, x.units ≠ n * one) :
    x.mantissa ≠ 2 ^ 52 ∧ one ≤ 2 ^ 29 * 2 ^ x.scale ∧ 2 ^ x.scale ≤ one := by
  obtain ⟨places, hplaces, hone⟩ : ∃ places, places = 1074 ∧ one = 2 ^ places :=
    ⟨1074, rfl, by decide +kernel⟩
  have hunits : 2 ^ 23 * one ≤ x.units := by
    rw [← Nat.not_lt, ← toRat_lt_natCast]
    exact not_lt.mpr (by exact_mod_cast hbig)
  have hshift (k : Nat) (hk : places ≤ k) : 2 ^ k = 2 ^ (k - places) * one := by
    rw [hone, ← pow_add, Nat.sub_add_cancel hk]
  have hlow : 1045 ≤ x.scale := by
    have hless : 2 ^ (23 + places) < 2 ^ (53 + x.scale) :=
      calc 2 ^ (23 + places) = 2 ^ 23 * one := by rw [pow_add, hone]
        _ ≤ x.mantissa * 2 ^ x.scale := hunits
        _ < 2 ^ 53 * 2 ^ x.scale :=
          Nat.mul_lt_mul_of_pos_right hx.bounded (Nat.pow_pos Nat.two_pos)
        _ = 2 ^ (53 + x.scale) := (pow_add _ _ _).symm
    have hexponents := (Nat.pow_lt_pow_iff_right (by decide)).mp hless
    omega
  have hhigh : x.scale < places := by
    by_contra hge
    refine hwhole (x.mantissa * 2 ^ (x.scale - places)) ?_
    rw [units_eq, hshift x.scale (Nat.le_of_not_lt hge), Nat.mul_assoc]
  refine ⟨fun hleast => hwhole (2 ^ (52 + x.scale - places)) ?_, ?_, ?_⟩
  · rw [← hshift _ (by omega), units_eq, hleast, pow_add]
  · rw [hone, ← pow_add]
    exact Nat.pow_le_pow_right Nat.two_pos (by omega)
  · rw [hone]
    exact Nat.pow_le_pow_right Nat.two_pos hhigh.le

/-- From `2 ^ 23` seconds on, the seconds of a duration are the value that it was read from. -/
theorem toBinary64_eq_of_le (hx : x.IsCanonical) (hd : ofBinary64? x = some d)
    (hbig : 2 ^ 23 ≤ x.toRat) : d.toBinary64 = x := by
  by_cases hwhole : ∃ n, x.units = n * one
  · obtain ⟨n, hn⟩ := hwhole
    exact toBinary64_eq_of_whole hx hd hn
  · obtain ⟨hmantissa, hfine, hcoarse⟩ := scale_of_not_whole hx hbig (not_exists.mp hwhole)
    have hone : (0 : ℚ) < one := Nat.cast_pos.mpr Binary64.one_pos
    have hunits : x.units * nanosPerSecond ≤ 2 ^ 53 * nanosPerSecond * one := by
      rw [Nat.mul_right_comm]
      exact Nat.mul_le_mul_right _ (Nat.mul_le_mul hx.bounded.le hcoarse)
    have hnanos := (isRounded_nanos hd).le_of_le_mul Binary64.one_pos hunits
    have hseconds : d.seconds ≤ 2 ^ 53 :=
      Nat.div_le_of_le_mul (hnanos.trans_eq (Nat.mul_comm _ _))
    obtain ⟨q, hq, -, -, -, hnear⟩ := d.exists_isNearest_toBinary64 hseconds
    have hread := abs_sub_nanos_le hd
    -- Half a nanosecond is less than half a unit.
    have hunit : (1 : ℚ) / 2 ^ 30 ≤ 2 ^ x.scale / (2 * one) := by
      rw [div_le_div_iff₀ (by norm_num) (mul_pos two_pos hone)]
      have hcast : (one : ℚ) ≤ 2 ^ 29 * 2 ^ x.scale := by exact_mod_cast hfine
      linarith
    refine hq.unique (hx.isNearest_of_abs_sub_lt hmantissa (lt_of_lt_of_le ?_ hunit))
    rw [cast_nanosPerSecond] at hnear hread
    have hnear' := abs_le.mp hnear
    have hread' := abs_le.mp hread
    rw [abs_lt]
    constructor <;> linarith

/-- The seconds of a duration that was read from a value have that duration. -/
theorem ofBinary64?_toBinary64 (hx : x.IsCanonical) (hd : ofBinary64? x = some d) :
    ofBinary64? d.toBinary64 = some d := by
  rcases lt_or_ge x.toRat (2 ^ 23) with hless | hbig
  · have hunits : x.units < 2 ^ 23 * one := by
      rw [← toRat_lt_natCast]
      exact_mod_cast hless
    refine ofBinary64?_toBinary64_of_le ((isRounded_nanos hd).le_of_le_mul Binary64.one_pos ?_)
    calc x.units * nanosPerSecond ≤ 2 ^ 23 * one * nanosPerSecond :=
          Nat.mul_le_mul_right _ hunits.le
      _ = 2 ^ 23 * nanosPerSecond * one := Nat.mul_right_comm _ _ _
  · rw [toBinary64_eq_of_le hx hd hbig]
    exact hd

/-- The seconds of a duration are rounded. -/
theorem isCanonical_toBinary64 (d : Duration) : d.toBinary64.IsCanonical :=
  (isNearest_add _ _).mem

/-- A duration that was read from a text is read again from its own seconds. -/
theorem parse_render {text : List Char} (layout : Decimal.Layout) (h : parse text = .ok d) :
    parse (d.render layout).toList = .ok d := by
  obtain ⟨s, rfl⟩ := exists_spelling h
  obtain ⟨x, hx, -, hd⟩ := parse_text_iff.mp h
  have hshortest := d.isCanonical_toBinary64.isNearest_shortest
  obtain ⟨s', htext, hvalue⟩ := Decimal.isTextOf_render layout d.toBinary64.shortest
  have hnonneg : 0 ≤ s'.value := by
    rw [hvalue, Decimal.toRat]
    positivity
  rw [render, ← htext]
  refine parse_text_iff.mpr ⟨d.toBinary64, ?_, fun hneg => absurd hneg hnonneg.not_gt, ?_⟩
  · rwa [abs_of_nonneg hnonneg, hvalue]
  · exact ofBinary64?_toBinary64 hx.mem hd

end Duration

/-- A line of a wait is carried out as a wait. -/
theorem Core.step_delay {core : Core} {text : String} {argument : List Char} {d : Duration}
    (hsplit : Directive.splitKeyword text.toList = ("DELAY".toList, argument))
    (hskipping : core.skipping = false) (h : Directive.parseDelay argument = .ok d) :
    core.step text = (.delay d, core) := by
  rw [Core.step, hskipping, Directive.classify_delay hsplit, h]
  rfl

/-- A wait is what the argument of its line is read as. -/
theorem Core.parseDelay_of_step {core : Core} {line : String} {d : Duration}
    (h : (core.step line).1 = .delay d) :
    Directive.parseDelay (Directive.splitKeyword line.toList).2 = .ok d := by
  obtain ⟨directive, hwords, hperform⟩ := ofWords_of_step h nofun nofun nofun
  rcases Directive.ofWords_ok hwords with ⟨_, _, _, rfl, _⟩ | rfl | rfl | ⟨_, rfl, hparse⟩ | rfl
  · cases hperform
  · cases hperform
  · cases hperform
  · rwa [← Command.delay.inj hperform]
  · cases hperform

/-- The first thing that a line of a wait does is to write the seconds to the transcript. -/
theorem Runner.runLine_announces {β σ : Type} (r : Runner β σ) {line : Line} {s : RunState β σ}
    {d : Duration} (h : s.core.step line.text = (.delay d, s.core)) :
    ∃ failure later result s',
      r.Does (r.runLine line) s (.write (Runner.delayLine d) failure :: later) result s' := by
  obtain ⟨events, result, s', hline⟩ := r.runLine_follows line s
  have hrule := hline.rule
  rw [h] at hrule
  generalize s'.books = books at hrule
  cases hrule with
  | unannounced => exact ⟨_, _, _, _, hline.does⟩
  | unshown => exact ⟨_, _, _, _, hline.does⟩
  | slept => exact ⟨_, _, _, _, hline.does⟩

namespace Directive

/-- What is accepted as a wait is shown twice, in a transcript before the wait and in a listing,
and both times as seconds that are accepted again as the same wait. The line of the listing is
written right after the listing of the lines before it. -/
theorem parseDelay_reads_back {argument : List Char} {d : Duration}
    (h : parseDelay argument = .ok d) :
    ∃ shown listed : String,
      parseDelay shown.toList = .ok d ∧ parseDelay listed.toList = .ok d ∧
      ∀ line : Line, splitKeyword line.text.toList = ("DELAY".toList, argument) →
        (∀ {β σ : Type} (r : Runner β σ) (s : RunState β σ), s.core.skipping = false →
          ∃ failure later result s', r.Does (r.runLine line) s
            (.write ("D: " ++ shown ++ "\n") failure :: later) result s') ∧
        (∀ (core : Core) (report : Report) (rest : List Line), core.skipping = false →
          ∃ later, (DryRun.walk core report (line :: rest)).1.map
              (fun entry => DryRun.entryLine entry.1 entry.2) =
            (DryRun.column line.number ++ ": " ++ ("delay " ++ listed ++ "s") ++ "\n") ::
              later) ∧
        ∀ {τ : Type} (sink : Sink τ) (contents : τ → Bytes) (page : τ) (script : Script)
          (before rest : List Line), sink.Shows contents → sink.Works page →
          script.lines = before ++ line :: rest →
          (Core.after {} (before.map Line.text)).skipping = false →
          ∃ later, contents (DryRun.run sink script page).2 =
            contents (DryRun.run sink ⟨script.baseDir, before, none⟩ page).2 ++
              (Utf8.ofString
                (DryRun.column line.number ++ ": " ++ ("delay " ++ listed ++ "s") ++ "\n") ++
                later) := by
  have hread := parseDelay_eq_ok_iff.mp h
  refine ⟨d.render Duration.transcriptLayout, d.render Duration.listingLayout,
    parseDelay_eq_ok_iff.mpr (Duration.parse_render _ hread),
    parseDelay_eq_ok_iff.mpr (Duration.parse_render _ hread), fun line hsplit => ⟨?_, ?_, ?_⟩⟩
  · intro β σ r s hskipping
    exact r.runLine_announces (Core.step_delay hsplit hskipping h)
  · intro core report rest hskipping
    rw [DryRun.walk, Core.step_delay hsplit hskipping h]
    exact ⟨_, rfl⟩
  · intro τ sink contents page script before rest hshows hworks hlines hskipping
    rw [DryRun.contents_run_append hshows hworks hlines, DryRun.walk,
      Core.step_delay hsplit hskipping h]
    exact ⟨_, rfl⟩

/-- A nanosecond is shown with an exponent in a transcript and without one in a listing, and is
read from both. -/
theorem parseDelay_reads_back_nanosecond :
    (∃ shown listed : String,
      parseDelay shown.toList = .ok ⟨1⟩ ∧ parseDelay listed.toList = .ok ⟨1⟩ ∧
        (∃ failure later result s', Runner.planned.Does
          (Runner.planned.runLine ⟨1, "DELAY 0.00000000100"⟩) (RunState.planned [])
            (.write ("D: " ++ shown ++ "\n") failure :: later) result s') ∧
        ∃ later, (DryRun.run LimitedSink.sink
            ⟨"/", [⟨1, "DELAY 0.00000000100"⟩], none⟩ {}).2.written =
          (DryRun.run LimitedSink.sink ⟨"/", [], none⟩ {}).2.written ++
            (Utf8.ofString ("   1: " ++ ("delay " ++ listed ++ "s") ++ "\n") ++ later)) ∧
      (⟨1⟩ : Duration).render Duration.transcriptLayout = "1e-9" ∧
      (⟨1⟩ : Duration).render Duration.listingLayout = "0.000000001" := by
  have hread : parseDelay "0.00000000100".toList = .ok ⟨1⟩ := by decide +kernel
  obtain ⟨shown, listed, hshown, hlisted, hline⟩ := parseDelay_reads_back hread
  obtain ⟨hrun, -, hdry⟩ := hline ⟨1, "DELAY 0.00000000100"⟩ (by decide)
  have hwritten := hdry LimitedSink.sink LimitedSink.written {}
    ⟨"/", [⟨1, "DELAY 0.00000000100"⟩], none⟩ [] [] LimitedSink.shows_written
    (LimitedSink.works rfl rfl) rfl rfl
  have hcolumn : DryRun.column 1 ++ ": " = "   1: " := by decide
  rw [hcolumn] at hwritten
  exact ⟨⟨shown, listed, hshown, hlisted, hrun Runner.planned (RunState.planned []) rfl,
    hwritten⟩, by decide +kernel, by decide +kernel⟩

end Directive

end LineScript
