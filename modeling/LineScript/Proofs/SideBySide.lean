import LineScript.Proofs.Course

/-!
# Two runs side by side

Two runs are compared that begin alike but for their counters and their histories.
A comparison says which lines, errors, counters and histories are taken to be the
same, and has to be in step with everything that a run does to them. Every part of a
run is then alike on both sides: it ends in the same way, and leaves states that
differ in counters and histories only. Main result: if two scripts are alike then so
are the runs of them.
-/

namespace LineScript

/-- The ways in which a run changes its counters. -/
inductive Report.Counting : (Report → Report) → Prop
  /-- A line is read. -/
  | lines : Counting fun report => { report with lines := report.lines + 1 }
  /-- A child is started. -/
  | restarts : Counting fun report => { report with restarts := report.restarts + 1 }
  /-- A text is sent. -/
  | sent : Counting fun report => { report with sent := report.sent + 1 }
  /-- A text is dropped. -/
  | dropped : Counting fun report => { report with dropped := report.dropped + 1 }
  /-- A line of output is copied. -/
  | echoed : Counting fun report => { report with echoed := report.echoed + 1 }
  /-- A directive is passed over. -/
  | warnings : Counting fun report => { report with warnings := report.warnings + 1 }

/-- What is taken to be the same on two sides, in step with what a run does on both
of them. -/
structure Comparison where
  /-- The lines that correspond. -/
  lines : Line → Line → Prop
  /-- The errors that correspond. -/
  errors : RunError → RunError → Prop
  /-- The counters that correspond. -/
  reports : Report → Report → Prop
  /-- The histories that correspond. -/
  histories : List Event → List Event → Prop
  /-- Corresponding lines have the same text. -/
  text_eq {line line' : Line} (h : lines line line') : line'.text = line.text
  /-- The same call fails on both sides. -/
  io (fault : Fault) : errors (.io fault) (.io fault)
  /-- A start fails at corresponding lines. -/
  spawn {line line' : Line} (h : lines line line') (program : String) (fault : Fault) :
    errors (.spawn line.number line.text program fault)
      (.spawn line'.number line'.text program fault)
  /-- A text is not taken at corresponding lines. -/
  write {line line' : Line} (h : lines line line') (text : String) (fault : Fault) :
    errors (.write line.number text fault) (.write line'.number text fault)
  /-- The same is counted on both sides. -/
  counted {change : Report → Report} (hchange : Report.Counting change) {report report' : Report}
    (h : reports report report') : reports (change report) (change report')
  /-- The same happens on both sides. -/
  noted (event : Event) {history history' : List Event} (h : histories history history') :
    histories (event :: history) (event :: history')
  /-- Corresponding lines are passed over. -/
  warned {line line' : Line} (hline : lines line line') (reason : FormatError)
    {history history' : List Event} (h : histories history history') :
    histories (.warn (.malformed line reason) :: history)
      (.warn (.malformed line' reason) :: history')

namespace Comparison

variable {β σ α γ : Type} (c : Comparison)

/-- Corresponding ways to stop. -/
inductive Halts : Halt → Halt → Prop
  /-- Both sides fail. -/
  | failed {error error'} (h : c.errors error error') : Halts (.failed error) (.failed error')
  /-- Both sides reach the bound of a drain. -/
  | unfinished : Halts .unfinished .unfinished

/-- Corresponding ends of a part, given which values are the same. -/
inductive Results (same : α → α → Prop) : Except Halt α → Except Halt α → Prop
  /-- Both sides give a value. -/
  | ok {a a'} (h : same a a') : Results same (.ok a) (.ok a')
  /-- Both sides stop. -/
  | error {halt halt'} (h : c.Halts halt halt') : Results same (.error halt) (.error halt')

/-- Corresponding ends of a run. -/
inductive Outcomes : Outcome → Outcome → Prop
  /-- Both sides carry out their script. -/
  | finished {report report'} (h : c.reports report report') :
      Outcomes (.finished report) (.finished report')
  /-- Both sides fail. -/
  | failed {error error'} (h : c.errors error error') : Outcomes (.failed error) (.failed error')
  /-- Both sides are left unfinished. -/
  | unfinished : Outcomes .unfinished .unfinished

/-- Corresponding states: they are the same but for counters and histories. -/
def States (s s' : RunState β σ) : Prop :=
  ∃ report history, s' = { s with report, history } ∧ c.reports s.report report ∧
    c.histories s.history history

/-- Two parts of a run do the same in two states. -/
structure AlikeAt (same : α → α → Prop) (part part' : Action β σ α) (s s' : RunState β σ) :
    Prop where
  /-- They end in the same way. -/
  result : c.Results same (part.run.run s).1 (part'.run.run s').1
  /-- They leave corresponding states. -/
  state : c.States (part.run.run s).2 (part'.run.run s').2

/-- Whether two parts of a run do the same in any corresponding states. -/
def Alike (same : α → α → Prop) (part part' : Action β σ α) : Prop :=
  ∀ s s', c.States s s' → c.AlikeAt same part part' s s'

variable {c}

/-- Two parts are alike if they end so. -/
theorem AlikeAt.of_run {same : α → α → Prop} {part part' : Action β σ α}
    {s s' t t' : RunState β σ} {result result' : Except Halt α}
    (hrun : part.run.run s = (result, t)) (hrun' : part'.run.run s' = (result', t'))
    (hresult : c.Results same result result') (hstate : c.States t t') :
    c.AlikeAt same part part' s s' where
  result := by rwa [hrun, hrun']
  state := by rwa [hrun, hrun']

/-- Two parts are alike if they come down to two that are. -/
theorem AlikeAt.of_eq {same : α → α → Prop} {part part' next next' : Action β σ α}
    {s s' t t' : RunState β σ} (hrun : part.run.run s = next.run.run t)
    (hrun' : part'.run.run s' = next'.run.run t') (h : c.AlikeAt same next next' t t') :
    c.AlikeAt same part part' s s' :=
  .of_run hrun hrun' h.result h.state

/-- Parts in a row are alike if the first ones are, and then the second ones are in
the states that these leave. -/
theorem AlikeAt.bind {same : γ → γ → Prop} {part part' : Action β σ α}
    {next next' : α → Action β σ γ} {s s' : RunState β σ} (h : c.AlikeAt Eq part part' s s')
    (hnext : ∀ a t t', part.run.run s = (.ok a, t) → c.States t t' →
      c.AlikeAt same (next a) (next' a) t t') :
    c.AlikeAt same (part >>= next) (part' >>= next') s s' := by
  obtain ⟨hresult, hstate⟩ := h
  rcases hrun : part.run.run s with ⟨result, t⟩
  rcases hrun' : part'.run.run s' with ⟨result', t'⟩
  have hbind := Runner.run_bind part next s
  have hbind' := Runner.run_bind part' next' s'
  rw [hrun] at hbind hresult hstate
  rw [hrun'] at hbind' hresult hstate
  cases hresult with
  | @ok a a' heq =>
    cases heq
    obtain ⟨hresult, hstate⟩ := hnext a t t' hrun hstate
    exact .of_run hbind hbind' hresult hstate
  | error hhalt => exact .of_run hbind hbind' (.error hhalt) hstate

/-- Parts in a row are alike if each of them is. -/
theorem Alike.bind {same : γ → γ → Prop} {part part' : Action β σ α}
    {next next' : α → Action β σ γ} (h : c.Alike Eq part part')
    (hnext : ∀ a, c.Alike same (next a) (next' a)) :
    c.Alike same (part >>= next) (part' >>= next') :=
  fun s s' hs => (h s s' hs).bind fun a t t' _ ht => hnext a t t' ht

/-- Parts that look at the state are alike if they are so for corresponding states. -/
theorem Alike.get_bind {same : α → α → Prop} {next next' : RunState β σ → Action β σ α}
    (h : ∀ s s', c.States s s' → c.Alike same (next s) (next' s')) :
    c.Alike same (get >>= next) (get >>= next') := by
  intro s s' hs
  obtain ⟨hresult, hstate⟩ := h s s' hs s s' hs
  exact ⟨hresult, hstate⟩

/-- Giving values that are the same is alike. -/
theorem Alike.pure {same : α → α → Prop} {a a' : α} (h : same a a') :
    c.Alike same (pure a : Action β σ α) (pure a') :=
  fun _ _ hs => ⟨.ok h, hs⟩

/-- Stopping in corresponding ways is alike. -/
theorem Alike.throw {halt halt' : Halt} {same : α → α → Prop} (h : c.Halts halt halt') :
    c.Alike same (throw halt : Action β σ α) (throw halt') :=
  fun _ _ hs => ⟨.error h, hs⟩

/-- A check is alike if its errors correspond. -/
theorem Alike.check {error error' : Fault → RunError} (failure : Option Fault)
    (h : ∀ fault, c.errors (error fault) (error' fault)) :
    c.Alike Eq (Runner.check failure error : Action β σ Unit) (Runner.check failure error') := by
  cases failure with
  | none => exact .pure rfl
  | some fault => exact .throw (.failed (h fault))

/-- Counting the same is alike. -/
theorem Alike.count {change : Report → Report} (hchange : Report.Counting change) :
    c.Alike Eq (Runner.count change : Action β σ Unit) (Runner.count change) := by
  rintro s _ ⟨report, history, rfl, hreport, hhistory⟩
  exact ⟨.ok rfl, _, _, rfl, c.counted hchange hreport, hhistory⟩

/-- Noting what corresponds is alike. -/
theorem Alike.note {event event' : Event}
    (h : ∀ history history', c.histories history history' →
      c.histories (event :: history) (event' :: history')) :
    c.Alike Eq (Runner.note event : Action β σ Unit) (Runner.note event') := by
  rintro s _ ⟨report, history, rfl, hreport, hhistory⟩
  exact ⟨.ok rfl, _, _, rfl, hreport, h _ _ hhistory⟩

/-- The same events happen on both sides. -/
theorem noted_append (events : List Event) {history history' : List Event}
    (h : c.histories history history') : c.histories (events ++ history) (events ++ history') := by
  induction events with
  | nil => exact h
  | cons event rest ih => exact c.noted event ih

variable (c) (r : Runner β σ)

/-- Turning a text into its command is alike. -/
theorem step_alike (text : String) :
    c.Alike Eq (Runner.step text : Action β σ Command) (Runner.step text) := by
  rintro s _ ⟨report, history, rfl, hreport, hhistory⟩
  exact ⟨.ok rfl, _, _, rfl, hreport, hhistory⟩

/-- Taking on a child is alike. -/
theorem adopt_alike : c.Alike Eq (Runner.adopt : Action β σ Unit) Runner.adopt := by
  rintro s _ ⟨report, history, rfl, hreport, hhistory⟩
  exact ⟨.ok rfl, _, _, rfl, c.counted .restarts hreport, hhistory⟩

/-- Writing a line is alike. -/
theorem writeLine_alike (line : String) : c.Alike Eq (r.writeLine line) (r.writeLine line) := by
  rintro s _ ⟨report, history, rfl, hreport, hhistory⟩
  refine .of_run (r.writeLine_run _ _) (r.writeLine_run _ _) ?_
    ⟨_, _, rfl, hreport, c.noted _ hhistory⟩
  cases (r.sink.write s.sink (line ++ "\n")).2 with
  | none => exact .ok rfl
  | some fault => exact .error (.failed (c.io fault))

/-- Trying to flush is alike. -/
theorem tryFlush_alike : c.Alike Eq r.tryFlush r.tryFlush := by
  rintro s _ ⟨report, history, rfl, hreport, hhistory⟩
  exact ⟨.ok rfl, _, _, rfl, hreport, c.noted _ hhistory⟩

/-- A flush is alike. -/
theorem flush_alike : c.Alike Eq r.flush r.flush :=
  (c.tryFlush_alike r).bind fun failure => .check failure c.io

/-- The end of a child is alike. -/
theorem tryTeardown_alike : c.Alike Eq r.tryTeardown r.tryTeardown := by
  rintro s s' ⟨report, history, hs, hreport, hhistory⟩
  have hchild : s'.child = s.child := by rw [hs]
  cases h : s.child with
  | none =>
    have hnothing := (r.tryTeardown_does_nothing h).ends
    have hnothing' := (r.tryTeardown_does_nothing (hchild.trans h)).ends
    exact .of_run hnothing hnothing' (.ok rfl) ⟨report, history, hs, hreport, hhistory⟩
  | some child =>
    have hend := r.tryTeardown_run h
    have hend' := r.tryTeardown_run (hchild.trans h)
    rw [hs] at hend'
    rw [hs]
    exact .of_run hend hend' (.ok rfl) ⟨_, _, rfl, hreport, noted_append _ hhistory⟩

/-- A start is alike. -/
theorem tryStart_alike (env : Environment) : c.Alike Eq (r.tryStart env) (r.tryStart env) := by
  rintro s _ ⟨report, history, rfl, hreport, hhistory⟩
  exact ⟨.ok rfl, _, _, rfl, hreport, c.noted _ hhistory⟩

/-- Handing a text to a child is alike. -/
theorem trySend_alike (child : Nat) (text : String) :
    c.Alike Eq (r.trySend child text) (r.trySend child text) := by
  rintro s _ ⟨report, history, rfl, hreport, hhistory⟩
  exact ⟨.ok rfl, _, _, rfl, hreport, c.noted _ hhistory⟩

/-- A poll is alike. -/
theorem poll_alike (child : Nat) : c.Alike Eq (r.poll child) (r.poll child) := by
  rintro s _ ⟨report, history, rfl, hreport, hhistory⟩
  exact ⟨.ok rfl, _, _, rfl, hreport, c.noted _ hhistory⟩

/-- The question whether a child has ended is alike. -/
theorem hasExited_alike (child : Nat) : c.Alike Eq (r.hasExited child) (r.hasExited child) := by
  rintro s _ ⟨report, history, rfl, hreport, hhistory⟩
  exact ⟨.ok rfl, _, _, rfl, hreport, c.noted _ hhistory⟩

/-- A wait is alike. -/
theorem sleep_alike (duration : Duration) : c.Alike Eq (r.sleep duration) (r.sleep duration) := by
  rintro s _ ⟨report, history, rfl, hreport, hhistory⟩
  exact ⟨.ok rfl, _, _, rfl, hreport, c.noted _ hhistory⟩

/-- A drain is alike. -/
theorem drain_alike (child left : Nat) : c.Alike Eq (r.drain child left) (r.drain child left) := by
  induction left with
  | zero => exact .throw .unfinished
  | succ left ih =>
    refine (c.poll_alike r child).bind fun outcome => ?_
    cases outcome with
    | timeout => exact c.flush_alike r
    | endOfStream => exact c.flush_alike r
    | line output =>
      refine (c.writeLine_alike r _).bind fun _ => (Alike.count .echoed).bind fun _ => ?_
      refine (c.hasExited_alike r child).bind fun exited => ?_
      cases exited with
      | true => exact c.flush_alike r
      | false => exact ih

/-- A command is alike at corresponding lines. -/
theorem execute_alike {line line' : Line} (hline : c.lines line line') (command : Command) :
    c.Alike Eq (r.execute line command) (r.execute line' command) := by
  cases command with
  | nothing => exact .pure rfl
  | skipMode on => exact c.writeLine_alike r _
  | restart env =>
    refine (c.tryTeardown_alike r).bind fun failure => (Alike.check failure c.io).bind fun _ => ?_
    refine (c.tryStart_alike r env).bind fun failure => ?_
    exact (Alike.check failure (c.spawn hline _)).bind fun _ => c.adopt_alike
  | send text =>
    refine .get_bind ?_
    rintro s _ ⟨report, history, rfl, -⟩
    cases s.child with
    | none => exact .count .dropped
    | some child =>
      refine (c.writeLine_alike r _).bind fun _ => (c.flush_alike r).bind fun _ => ?_
      refine (c.trySend_alike r child text).bind fun failure => ?_
      refine (Alike.check failure (c.write hline text)).bind fun _ => ?_
      exact (Alike.count .sent).bind fun _ => c.drain_alike r child r.patience
  | delay duration =>
    refine (c.writeLine_alike r _).bind fun _ => (c.flush_alike r).bind fun _ => ?_
    exact c.sleep_alike r duration
  | malformed reason =>
    exact (Alike.count .warnings).bind fun _ => .note fun _ _ => c.warned hline reason

/-- Corresponding lines are alike. -/
theorem runLine_alike {line line' : Line} (hline : c.lines line line') :
    c.Alike Eq (r.runLine line) (r.runLine line') := by
  refine (Alike.count .lines).bind fun _ => ?_
  rw [c.text_eq hline]
  exact (c.step_alike line.text).bind fun command => c.execute_alike r hline command

/-- The conclusion of a run is alike if its script stopped in corresponding ways. -/
theorem conclude_alike {stopped stopped' : Except Halt Unit}
    (h : c.Results Eq stopped stopped') :
    c.Alike c.Outcomes (r.conclude stopped) (r.conclude stopped') := by
  refine (c.tryTeardown_alike r).bind fun cleanup => (c.tryFlush_alike r).bind fun _ => ?_
  cases h with
  | ok =>
    cases cleanup with
    | some fault => exact .pure (.failed (c.io fault))
    | none =>
      refine .get_bind ?_
      rintro s _ ⟨report, history, rfl, hreport, -⟩
      exact .pure (.finished hreport)
  | error hhalt =>
    cases hhalt with
    | unfinished => exact .pure .unfinished
    | failed herror =>
      cases cleanup with
      | none => exact .pure (.failed herror)
      | some fault => exact (Alike.note fun _ _ => c.noted _).bind fun _ => .pure (.failed herror)

variable {c} in
/-- Runs are alike if their scripts are. -/
theorem run_alike {script script' : Script} {s s' : RunState β σ}
    (h : c.AlikeAt Eq (r.runScript script) (r.runScript script') s s') :
    c.Outcomes (r.run script s).1 (r.run script' s').1 ∧
      c.States (r.run script s).2 (r.run script' s').2 := by
  obtain ⟨hresult, hstate⟩ := h
  rcases hscript : (r.runScript script).run.run s with ⟨stopped, t⟩
  rcases hscript' : (r.runScript script').run.run s' with ⟨stopped', t'⟩
  rw [hscript, hscript'] at hresult hstate
  by_cases hne : stopped = .error .unfinished
  · subst hne
    cases hresult with
    | error hhalt =>
      cases hhalt
      rw [Runner.run, Runner.run, hscript, hscript']
      exact ⟨.unfinished, hstate⟩
  · have hne' : stopped' ≠ .error .unfinished := by
      rintro rfl
      cases hresult with
      | error hhalt =>
        cases hhalt
        exact hne rfl
    obtain ⟨houtcome, hlast⟩ := c.conclude_alike r hresult t t' hstate
    rw [r.run_eq_conclude hscript hne, r.run_eq_conclude hscript' hne']
    rcases hconclude : (r.conclude stopped).run.run t with ⟨concluded, u⟩
    rcases hconclude' : (r.conclude stopped').run.run t' with ⟨concluded', u'⟩
    rw [hconclude, hconclude'] at houtcome hlast
    cases houtcome with
    | ok h => exact ⟨h, hlast⟩
    | error => exact ⟨.unfinished, hlast⟩

end Comparison

end LineScript
