import LineScript.Proofs.SideBySide

/-!
# No more is counted than lines were read

A line is counted before anything else is done about it, and leads to at most one
restart, one text or one warning. This module follows the counters through every state
that a part of a run passes through, and not only from its begin to its end. Main result:
at no moment of a run are more restarts, texts and warnings counted than lines.
-/

namespace LineScript

namespace Report

/-- How many restarts, texts and warnings were counted. -/
def settled (report : Report) : Nat :=
  report.restarts + report.sent + report.dropped + report.warnings

/-- Whether no more is counted than lines were read. -/
def Balanced (report : Report) : Prop := report.settled ≤ report.lines

instance (report : Report) : Decidable report.Balanced :=
  inferInstanceAs (Decidable (report.settled ≤ report.lines))

/-- Whether one line was read that nothing was counted for. -/
def Pending (report : Report) : Prop := report.settled < report.lines

/-- A line that is read is pending. -/
theorem Balanced.pending {report : Report} (h : report.Balanced) :
    Pending { report with lines := report.lines + 1 } := Nat.lt_succ_of_le h

/-- A pending line does no harm. -/
theorem Pending.balanced {report : Report} (h : report.Pending) : report.Balanced :=
  Nat.le_of_lt h

/-- One start, text or warning makes up for a pending line. -/
theorem Pending.settle {report report' : Report} (h : report.Pending)
    (hlines : report'.lines = report.lines) (hsettled : report'.settled = report.settled + 1) :
    report'.Balanced := by
  rw [Balanced, hlines, hsettled]
  exact h

end Report

namespace Runner

variable {β σ α γ : Type} (r : Runner β σ)

/-- Whether counters have a property in every state that a part of a run passes through:
a part looks at the state, replaces it, or does two smaller parts in a row. -/
inductive Throughout (P : Report → Prop) : {δ : Type} → Action β σ δ → RunState β σ → Prop
  /-- A value is given. -/
  | value {δ : Type} {a : δ} {s : RunState β σ} (h : P s.report) : Throughout P (pure a) s
  /-- The script is stopped. -/
  | stop {δ : Type} {halt : Halt} {s : RunState β σ} (h : P s.report) :
      Throughout P (throw halt : Action β σ δ) s
  /-- The state is looked at. -/
  | look {s : RunState β σ} (h : P s.report) : Throughout P get s
  /-- The state is replaced. -/
  | replace {s s' : RunState β σ} (h : P s.report) (h' : P s'.report) : Throughout P (set s') s
  /-- The state is changed. -/
  | change {s : RunState β σ} {change : RunState β σ → RunState β σ} (h : P s.report)
      (h' : P (change s).report) :
      Throughout P (modify change : Action β σ Unit) s
  /-- A part is done and then, if it gives a value, another one. -/
  | seq {δ ε : Type} {part : Action β σ δ} {next : δ → Action β σ ε} {s : RunState β σ}
      (h : Throughout P part s)
      (hnext : ∀ a s', part.run.run s = (.ok a, s') → Throughout P (next a) s') :
      Throughout P (part >>= next) s

variable {r} {P : Report → Prop}

/-- The last state is one of those that a part passes through. -/
theorem Throughout.last {part : Action β σ α} {s : RunState β σ} (h : Throughout P part s) :
    P (part.run.run s).2.report := by
  induction h with
  | value h => exact h
  | stop h => exact h
  | look h => exact h
  | replace _ h' => exact h'
  | change _ h' => exact h'
  | @seq _ _ part next s _ _ ihpart ihnext =>
    rw [run_bind]
    rcases hrun : part.run.run s with ⟨result, s'⟩
    rw [hrun] at ihpart
    cases result with
    | ok a => exact ihnext a s' hrun
    | error halt => exact ihpart

/-- Whether a part of a run leaves the counters alone all the time. -/
def Uncounted (part : Action β σ α) : Prop :=
  ∀ (P : Report → Prop) (s : RunState β σ), P s.report → Throughout P part s

/-- A part that leaves the counters alone may come first; what holds of them before it holds
after it. -/
theorem Uncounted.bind {Q : Report → Prop} {part : Action β σ α} {next : α → Action β σ γ}
    {s : RunState β σ} (h : Uncounted part) (hQP : ∀ report, Q report → P report)
    (hQ : Q s.report) (hnext : ∀ a s', Q s'.report → Throughout P (next a) s') :
    Throughout P (part >>= next) s := by
  refine .seq (h P s (hQP _ hQ)) fun a s' hrun => hnext a s' ?_
  have hlast := (h Q s hQ).last
  rwa [hrun] at hlast

/-- Parts in a row leave the counters alone if each of them does. -/
theorem Uncounted.seq {part : Action β σ α} {next : α → Action β σ γ} (h : Uncounted part)
    (hnext : ∀ a, Uncounted (next a)) : Uncounted (part >>= next) :=
  fun P _ hP => h.bind (fun _ hP => hP) hP fun a s' hP' => hnext a P s' hP'

/-- A part may come after a change of the counters. -/
theorem Throughout.count_bind {change : Report → Report} {next : Unit → Action β σ γ}
    {s : RunState β σ} (h : P s.report)
    (hnext : ∀ s', s'.report = change s.report → Throughout P (next ()) s')
    (hcounted : P (change s.report)) : Throughout P (count change >>= next) s := by
  refine .seq (.change h hcounted) ?_
  rintro _ _ ⟨⟩
  exact hnext _ rfl

/-- A part may look at the state first. -/
theorem Uncounted.get_bind {next : RunState β σ → Action β σ α}
    (h : ∀ s P, P s.report → Throughout P (next s) s) : Uncounted (get >>= next) := by
  intro P s hP
  refine .seq (.look hP) ?_
  rintro _ _ ⟨⟩
  exact h s P hP

/-- A change of the state that keeps its counters leaves them alone. -/
theorem Throughout.set_bind {next : PUnit → Action β σ α} {s s' : RunState β σ}
    (h : P s.report) (hsame : s'.report = s.report) (hnext : Uncounted (next ())) :
    Throughout P (set s' >>= next) s := by
  have hP : P s'.report := hsame.symm ▸ h
  refine .seq (.replace h hP) ?_
  rintro _ _ ⟨⟩
  exact hnext P s' hP

/-- Noting an event leaves the counters alone. -/
theorem note_uncounted (event : Event) : Uncounted (note event : Action β σ Unit) :=
  fun _ _ hP => .change hP hP

/-- Giving a value leaves the counters alone. -/
theorem pure_uncounted (a : α) : Uncounted (pure a : Action β σ α) := fun _ _ hP => .value hP

/-- A check leaves the counters alone. -/
theorem check_uncounted (failure : Option Fault) (error : Fault → RunError) :
    Uncounted (check failure error : Action β σ Unit) := by
  cases failure with
  | none => exact pure_uncounted ()
  | some fault => exact fun _ _ hP => .stop hP

variable (r)

/-- Writing a line leaves the counters alone. -/
theorem writeLine_uncounted (line : String) : Uncounted (r.writeLine line) :=
  .get_bind fun _ _ hP =>
    .set_bind hP rfl ((note_uncounted _).seq fun _ => check_uncounted _ _)

/-- Trying to flush leaves the counters alone. -/
theorem tryFlush_uncounted : Uncounted r.tryFlush :=
  .get_bind fun _ _ hP => .set_bind hP rfl ((note_uncounted _).seq fun _ => pure_uncounted _)

/-- A flush leaves the counters alone. -/
theorem flush_uncounted : Uncounted r.flush :=
  r.tryFlush_uncounted.seq fun _ => check_uncounted _ _

/-- The end of a child leaves the counters alone. -/
theorem tryTeardown_uncounted : Uncounted r.tryTeardown := by
  refine .get_bind fun s P hP => ?_
  cases s.child with
  | none => exact .value hP
  | some child =>
    refine .set_bind hP rfl ?_
    cases (r.host.teardown s.host child).2.killedAfter with
    | none => exact (note_uncounted _).seq fun _ => pure_uncounted _
    | some limit =>
      exact (note_uncounted _).seq fun _ => (note_uncounted _).seq fun _ => pure_uncounted _

/-- A start leaves the counters alone. -/
theorem tryStart_uncounted (env : Environment) : Uncounted (r.tryStart env) :=
  .get_bind fun _ _ hP => .set_bind hP rfl ((note_uncounted _).seq fun _ => pure_uncounted _)

/-- Handing a text to a child leaves the counters alone. -/
theorem trySend_uncounted (child : Nat) (text : String) : Uncounted (r.trySend child text) :=
  .get_bind fun _ _ hP => .set_bind hP rfl ((note_uncounted _).seq fun _ => pure_uncounted _)

/-- A poll leaves the counters alone. -/
theorem poll_uncounted (child : Nat) : Uncounted (r.poll child) :=
  .get_bind fun _ _ hP => .set_bind hP rfl ((note_uncounted _).seq fun _ => pure_uncounted _)

/-- The question whether a child has ended leaves the counters alone. -/
theorem hasExited_uncounted (child : Nat) : Uncounted (r.hasExited child) :=
  .get_bind fun _ _ hP => .set_bind hP rfl ((note_uncounted _).seq fun _ => pure_uncounted _)

/-- A wait leaves the counters alone. -/
theorem sleep_uncounted (duration : Duration) : Uncounted (r.sleep duration) :=
  .get_bind fun _ _ hP => .set_bind hP rfl (note_uncounted _)

/-- Turning a text into its command leaves the counters alone. -/
theorem step_uncounted (text : String) : Uncounted (step text : Action β σ Command) :=
  .get_bind fun _ _ hP => .set_bind hP rfl (pure_uncounted _)

/-- Concluding a run leaves the counters alone. -/
theorem conclude_uncounted (stopped : Except Halt Unit) : Uncounted (r.conclude stopped) := by
  refine r.tryTeardown_uncounted.seq fun cleanup => r.tryFlush_uncounted.seq fun _ => ?_
  match stopped, cleanup with
  | .error (.failed error), none => exact pure_uncounted _
  | .error (.failed error), some fault =>
    exact (note_uncounted _).seq fun _ => pure_uncounted _
  | .error .unfinished, _ => exact pure_uncounted _
  | .ok (), some fault => exact pure_uncounted _
  | .ok (), none => exact .get_bind fun _ _ hP => .value hP

open Report (Balanced Pending)

/-- A drain raises no counter that has to be balanced. -/
theorem drain_balanced (child left : Nat) {s : RunState β σ} (h : s.report.Balanced) :
    Throughout Balanced (r.drain child left) s := by
  have hsame : ∀ report, Balanced report → Balanced report := fun _ h => h
  induction left generalizing s with
  | zero => exact .stop h
  | succ left ih =>
    refine (r.poll_uncounted child).bind hsame h fun outcome s₁ h₁ => ?_
    cases outcome with
    | timeout => exact r.flush_uncounted _ _ h₁
    | endOfStream => exact r.flush_uncounted _ _ h₁
    | line output =>
      refine (r.writeLine_uncounted _).bind hsame h₁ fun _ s₂ h₂ => ?_
      refine .count_bind h₂ (fun s₃ hs₃ => ?_) h₂
      have h₃ : s₃.report.Balanced := by
        rw [hs₃]
        exact h₂
      refine (r.hasExited_uncounted child).bind hsame h₃ fun exited s₄ h₄ => ?_
      cases exited with
      | true => exact r.flush_uncounted _ _ h₄
      | false => exact ih h₄

/-- A command is balanced once its line was read: the line is pending until the one counter
is raised that the command is about. -/
theorem execute_balanced (line : Line) (command : Command) {s : RunState β σ}
    (h : s.report.Pending) : Throughout Balanced (r.execute line command) s := by
  have hpending : ∀ report, Pending report → Balanced report := fun _ h => h.balanced
  cases command with
  | nothing => exact .value h.balanced
  | skipMode on => exact r.writeLine_uncounted _ _ _ h.balanced
  | restart env =>
    refine r.tryTeardown_uncounted.bind hpending h fun failure s₁ h₁ => ?_
    refine (check_uncounted failure _).bind hpending h₁ fun _ s₂ h₂ => ?_
    refine (r.tryStart_uncounted env).bind hpending h₂ fun failure s₃ h₃ => ?_
    refine (check_uncounted failure _).bind hpending h₃ fun _ s₄ h₄ => ?_
    refine .seq (.change h₄.balanced h₄.balanced) ?_
    rintro _ _ ⟨⟩
    refine .change h₄.balanced (h₄.settle rfl ?_)
    simp only [Report.settled]
    omega
  | send text =>
    refine .seq (.look h.balanced) ?_
    rintro _ _ ⟨⟩
    cases s.child with
    | none =>
      refine .change h.balanced (h.settle rfl ?_)
      simp only [Report.settled]
      omega
    | some child =>
      refine (r.writeLine_uncounted _).bind hpending h fun _ s₁ h₁ => ?_
      refine r.flush_uncounted.bind hpending h₁ fun _ s₂ h₂ => ?_
      refine (r.trySend_uncounted child text).bind hpending h₂ fun failure s₃ h₃ => ?_
      refine (check_uncounted failure _).bind hpending h₃ fun _ s₄ h₄ => ?_
      have hsent : Balanced { s₄.report with sent := s₄.report.sent + 1 } := by
        refine h₄.settle rfl ?_
        simp only [Report.settled]
        omega
      refine .count_bind h₄.balanced (fun s₅ hs₅ => r.drain_balanced child r.patience ?_) hsent
      rwa [hs₅]
  | delay duration =>
    refine (r.writeLine_uncounted _).bind hpending h fun _ s₁ h₁ => ?_
    refine r.flush_uncounted.bind hpending h₁ fun _ s₂ h₂ => ?_
    exact r.sleep_uncounted duration _ _ h₂.balanced
  | malformed reason =>
    have hwarned : Balanced { s.report with warnings := s.report.warnings + 1 } := by
      refine h.settle rfl ?_
      simp only [Report.settled]
      omega
    refine .count_bind h.balanced (fun s₁ hs₁ => note_uncounted _ _ _ ?_) hwarned
    rwa [hs₁]

/-- A line is balanced. -/
theorem runLine_balanced (line : Line) {s : RunState β σ} (h : s.report.Balanced) :
    Throughout Balanced (r.runLine line) s := by
  refine .count_bind h (fun s₁ hs₁ => ?_) h.pending.balanced
  have hpending : s₁.report.Pending := by
    rw [hs₁]
    exact h.pending
  exact (step_uncounted line.text).bind (fun _ h => h.balanced) hpending fun command _ h₂ =>
    r.execute_balanced line command h₂

/-- Lines in turn are balanced. -/
theorem runLines_balanced (lines : List Line) {s : RunState β σ} (h : s.report.Balanced) :
    Throughout Balanced (r.runLines lines) s := by
  induction lines generalizing s with
  | nil => exact .value h
  | cons line rest ih =>
    refine .seq (r.runLine_balanced line h) fun _ s' hrun => ih ?_
    have hlast := (r.runLine_balanced line h).last
    rwa [hrun] at hlast

/-- A script is balanced. -/
theorem runScript_balanced (script : Script) {s : RunState β σ} (h : s.report.Balanced) :
    Throughout Balanced (r.runScript script) s := by
  refine .seq (r.runLines_balanced script.lines h) fun _ s' hrun => ?_
  have hlast := (r.runLines_balanced script.lines h).last
  rw [hrun] at hlast
  exact check_uncounted _ _ _ _ hlast

/-- From the begin to the end of a run, in its script and in the conclusion, no more is
counted than lines were read; so runs may follow each other. -/
theorem run_balanced (script : Script) {s : RunState β σ} (h : s.report.Balanced) :
    Throughout Balanced (r.runScript script) s ∧
      (∀ stopped t, (r.runScript script).run.run s = (stopped, t) →
        Throughout Balanced (r.conclude stopped) t) ∧
      (r.run script s).2.report.Balanced := by
  have hscript := r.runScript_balanced script h
  have hconclude (stopped : Except Halt Unit) (t : RunState β σ)
      (hrun : (r.runScript script).run.run s = (stopped, t)) :
      Throughout Balanced (r.conclude stopped) t := by
    have hlast := hscript.last
    rw [hrun] at hlast
    exact r.conclude_uncounted stopped _ _ hlast
  refine ⟨hscript, hconclude, ?_⟩
  rcases hrun : (r.runScript script).run.run s with ⟨stopped, t⟩
  by_cases hunfinished : stopped = .error .unfinished
  · have hlast := hscript.last
    rw [hrun] at hlast
    rw [run, hrun, hunfinished]
    exact hlast
  · have hlast := (hconclude stopped t hrun).last
    rw [r.run_eq_conclude hrun hunfinished]
    rcases hend : (r.conclude stopped).run.run t with ⟨result, t'⟩
    rw [hend] at hlast
    cases result with
    | ok outcome => exact hlast
    | error halt => exact hlast

end Runner

end LineScript
