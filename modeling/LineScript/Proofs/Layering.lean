import LineScript.Options.File

/-!
# Options in layers

The command line lies over the configuration file, and the file over the defaults. Only the value on
top counts, for the check as well as for the run: a bad value that is covered does no harm, and a
good one does not help under a bad one. Main result: a command line is refused exactly if a waiting
time of zero is on top, and else gives the values on top and nothing else. Laying the same command
line over the result changes nothing, a command line that says nothing gives the file's own options,
and every number of milliseconds becomes a duration of just that length.
-/

namespace LineScript

/-- Whether a duration has the length of a number of milliseconds, in whole seconds and in
nanoseconds below a second. -/
structure Duration.IsMillis (d : Duration) (millis : Nat) : Prop where
  /-- Seconds and nanoseconds together are the milliseconds. -/
  total : d.seconds * 1000000000 + d.subsecond = millis * 1000000
  /-- The nanoseconds are less than a second. -/
  subsecond_lt : d.subsecond < 1000000000
  /-- Milliseconds of 64 bits have seconds of 64 bits. -/
  seconds_lt : millis < Nat.pow 2 64 → d.seconds < Nat.pow 2 64

/-- A number of milliseconds becomes a duration of that length. -/
theorem Duration.isMillis_ofMillis (millis : Nat) : (Duration.ofMillis millis).IsMillis millis := by
  have hseconds : (Duration.ofMillis millis).seconds = millis * 1000000 / 1000000000 := rfl
  have hsubsecond : (Duration.ofMillis millis).subsecond = millis * 1000000 % 1000000000 := rfl
  have hlimit : Nat.pow 2 64 = 18446744073709551616 := rfl
  refine ⟨?_, ?_, ?_⟩ <;> omega

namespace Options

/-- Whether options may be used for a run. -/
structure Valid (options : Options) : Prop where
  /-- There is some time to wait for output. -/
  poll : options.pollMillis ≠ 0
  /-- There is some time to wait for the end of a child, if that time is limited. -/
  teardown : options.teardownMillis ≠ some 0

/-- Whether options are those of a file under what a command line says. -/
structure Layered (file : Options) (flags : Overrides) (options : Options) : Prop where
  /-- The waiting time for output is the flag's, if it is given. -/
  poll_flag : ∀ millis, flags.pollMillis = some millis → options.pollMillis = millis
  /-- Else it is the file's. -/
  poll_file : flags.pollMillis = none → options.pollMillis = file.pollMillis
  /-- The waiting time for the end of a child is the flag's, if it is given. -/
  teardown_flag : ∀ millis, flags.teardownMillis = some millis →
    options.teardownMillis = some millis
  /-- Else it is the file's, or missing as there. -/
  teardown_file : flags.teardownMillis = none → options.teardownMillis = file.teardownMillis
  /-- The arguments are those of the command line, if it has any. -/
  args_flag : flags.args ≠ [] → options.args = flags.args
  /-- Else they are the file's. -/
  args_file : flags.args = [] → options.args = file.args

variable {file options : Options} {flags : Overrides}

/-- What the command line says is laid over the file. -/
theorem layered_override (file : Options) (flags : Overrides) :
    Layered file flags (file.override flags) where
  poll_flag millis h := by rw [override, h, Option.getD_some]
  poll_file h := by rw [override, h, Option.getD_none]
  teardown_flag millis h := by rw [override, h, Option.some_or]
  teardown_file h := by rw [override, h, Option.none_or]
  args_flag h := if_neg h
  args_file h := if_pos h

/-- There is just one way to lay a command line over a file. -/
theorem Layered.unique {other : Options} (h : Layered file flags options)
    (hother : Layered file flags other) : options = other := by
  have hpoll : options.pollMillis = other.pollMillis := by
    cases hflag : flags.pollMillis with
    | none => rw [h.poll_file hflag, hother.poll_file hflag]
    | some millis => rw [h.poll_flag millis hflag, hother.poll_flag millis hflag]
  have hteardown : options.teardownMillis = other.teardownMillis := by
    cases hflag : flags.teardownMillis with
    | none => rw [h.teardown_file hflag, hother.teardown_file hflag]
    | some millis => rw [h.teardown_flag millis hflag, hother.teardown_flag millis hflag]
  have hargs : options.args = other.args := by
    by_cases hflag : flags.args = []
    · rw [h.args_file hflag, hother.args_file hflag]
    · rw [h.args_flag hflag, hother.args_flag hflag]
  obtain ⟨poll, teardown, args⟩ := options
  obtain rfl : poll = _ := hpoll
  obtain rfl : teardown = _ := hteardown
  obtain rfl : args = _ := hargs
  rfl

/-- Options under a command line stay the same under it once more. -/
theorem Layered.again (h : Layered file flags options) : Layered options flags options where
  poll_flag := h.poll_flag
  poll_file _ := rfl
  teardown_flag := h.teardown_flag
  teardown_file _ := rfl
  args_flag := h.args_flag
  args_file _ := rfl

/-- Under a command line that says nothing the file's options stay the same. -/
theorem layered_nothing (file : Options) : Layered file {} file where
  poll_flag := nofun
  poll_file _ := rfl
  teardown_flag := nofun
  teardown_file _ := rfl
  args_flag h := absurd rfl h
  args_file _ := rfl

/-- Valid options pass the check as they are. -/
theorem Valid.checked_eq (h : options.Valid) : options.checked = .ok options := by
  rw [checked, check, if_neg h.poll, if_neg h.teardown]
  rfl

/-- Other options are refused, by the waiting time for output if that is zero. -/
theorem checked_of_not_valid (h : ¬ options.Valid) :
    options.checked = .error (.config
      (if options.pollMillis = 0 then OptionsError.zeroPoll else .zeroTeardown).message) := by
  rw [checked, check]
  by_cases hpoll : options.pollMillis = 0
  · rw [if_pos hpoll, if_pos hpoll]
    rfl
  · have hteardown : options.teardownMillis = some 0 :=
      Decidable.by_contra fun hteardown => h ⟨hpoll, hteardown⟩
    rw [if_neg hpoll, if_neg hpoll, if_pos hteardown]
    rfl

/-- What passes the check is valid. -/
theorem valid_of_checked {result : Options} (h : options.checked = .ok result) :
    options.Valid ∧ result = options := by
  by_cases hvalid : options.Valid
  · rw [hvalid.checked_eq] at h
    cases h
    exact ⟨hvalid, rfl⟩
  · rw [checked_of_not_valid hvalid] at h
    cases h

/-- Whether a result is that of a file and a command line, laid over each other and then checked. -/
structure Resolved (file : Options) (flags : Overrides) (result : Except RunError Options) :
    Prop where
  /-- There are options exactly if the values on top are not zero. -/
  succeeds_iff : (∃ options, result = .ok options) ↔
    flags.pollMillis.getD file.pollMillis ≠ 0 ∧
      flags.teardownMillis.or file.teardownMillis ≠ some 0
  /-- They have the values on top. -/
  layered : ∀ options, result = .ok options → Layered file flags options
  /-- Else the error names a value on top that is zero, that for output first. -/
  refused : ∀ error, result = .error error → error = .config
    (if flags.pollMillis.getD file.pollMillis = 0 then OptionsError.zeroPoll
      else .zeroTeardown).message
  /-- Under the same command line once more the options stay the same. -/
  again : ∀ options, result = .ok options → resolve (some (.ok options)) flags = .ok options

/-- The values on top are checked, and given as they are. -/
theorem resolved_checked (file : Options) (flags : Overrides) :
    Resolved file flags (file.override flags).checked where
  succeeds_iff := by
    constructor
    · rintro ⟨options, h⟩
      obtain ⟨hvalid, -⟩ := valid_of_checked h
      exact ⟨hvalid.poll, hvalid.teardown⟩
    · rintro ⟨hpoll, hteardown⟩
      exact ⟨_, Valid.checked_eq ⟨hpoll, hteardown⟩⟩
  layered options h := by
    obtain ⟨-, rfl⟩ := valid_of_checked h
    exact layered_override file flags
  refused error h := by
    have hvalid : ¬ (file.override flags).Valid := fun hvalid => by
      rw [hvalid.checked_eq] at h
      cases h
    rw [checked_of_not_valid hvalid] at h
    cases h
    rfl
  again options h := by
    obtain ⟨hvalid, rfl⟩ := valid_of_checked h
    have hsame := (layered_override _ flags).unique (layered_override file flags).again
    change ((file.override flags).override flags).checked = _
    rw [hsame, hvalid.checked_eq]

end Options

/-- The options that a command line starts from: those of its configuration file, or the defaults.
-/
def CommandLine.base (line : CommandLine) (tree : FileTree) (directory : Location) :
    Except RunError Options :=
  match line.config with
  | none => .ok {}
  | some path => Options.load tree directory path

/-- A command line is checked with its values laid over those that it starts from. -/
theorem CommandLine.options_eq (line : CommandLine) (tree : FileTree) (directory : Location) :
    line.options tree directory =
      line.base tree directory >>= fun file => (file.override line.overrides).checked := by
  rw [options, base, Options.resolve]
  cases line.config <;> rfl

/-- Any options under any flags give the values on top, checked. So does a command line, over
whatever it starts from; if its configuration file cannot be read, it gives that error. A command
line that says nothing about the options gives those of its configuration file, checked by itself.
And any options say how long to wait in durations of just as many milliseconds. -/
theorem CommandLine.options_layered (line : CommandLine) (tree : FileTree) (directory : Location) :
    (∀ file flags, Options.Resolved file flags (Options.resolve (some (.ok file)) flags)) ∧
    (∀ file, line.base tree directory = .ok file →
      Options.Resolved file line.overrides (line.options tree directory)) ∧
    (∀ error, line.base tree directory = .error error →
      line.options tree directory = .error error) ∧
    (∀ path, line.config = some path → line.overrides = {} →
      line.options tree directory = Options.loadChecked tree directory path) ∧
    ∀ options : Options, options.pollTimeout.IsMillis options.pollMillis ∧
      (options.teardownMillis = none → options.teardownTimeout = none) ∧
      ∀ millis, options.teardownMillis = some millis →
        ∃ limit, options.teardownTimeout = some limit ∧ limit.IsMillis millis := by
  rw [options_eq]
  refine ⟨Options.resolved_checked, fun file h => ?_, fun error h => ?_,
    fun path hpath hnothing => ?_, fun options => ?_⟩
  · rw [h]
    exact Options.resolved_checked file line.overrides
  · rw [h]
    rfl
  · rw [base, hpath, hnothing, Options.loadChecked]
    refine bind_congr fun file => ?_
    rw [(Options.layered_override file {}).unique (Options.layered_nothing file)]
  · refine ⟨Duration.isMillis_ofMillis _, fun hnone => ?_, fun millis hsome => ?_⟩
    · rw [Options.teardownTimeout, hnone, Option.map_none]
    · refine ⟨_, ?_, Duration.isMillis_ofMillis millis⟩
      rw [Options.teardownTimeout, hsome, Option.map_some]

end LineScript
