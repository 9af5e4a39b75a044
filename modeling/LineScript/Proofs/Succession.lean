import LineScript.Proofs.Lifecycle
import LineScript.Proofs.Reading
import LineScript.Proofs.SideBySide

/-!
# Runs in a row

A runner that has run scripts before is compared with a fresh one that has the same
variables, the same skip mode and the same parties. What it has counted, what happened and
how many children it has started are its past; it numbers its children on from there, so
the fresh runner deals with a host in which numbers begin at that place. Every part of a run
does the same with a past as without, and leaves the past as it is. Main result: each of
scripts in a row ends as on a fresh runner, with the same calls, whatever became of the
scripts before it.
-/

namespace LineScript

/-- Counters on top of others. -/
def Report.add (past report : Report) : Report where
  lines := past.lines + report.lines
  restarts := past.restarts + report.restarts
  sent := past.sent + report.sent
  dropped := past.dropped + report.dropped
  echoed := past.echoed + report.echoed
  warnings := past.warnings + report.warnings

/-- What is counted later is counted on top. -/
theorem Report.Counting.add {change : Report → Report} (h : Report.Counting change)
    (past report : Report) : past.add (change report) = change (past.add report) := by
  cases h <;> rfl

/-- A host that is asked for its children by numbers that begin at `first`. -/
def Host.numberedFrom {β : Type} (host : Host β) (first : Nat) : Host β where
  program := host.program
  start state child env := host.start state (first + child) env
  send state child text := host.send state (first + child) text
  poll state child timeout := host.poll state (first + child) timeout
  hasExited state child := host.hasExited state (first + child)
  teardown state child := host.teardown state (first + child)
  pass := host.pass

/-- An event whose child is numbered from `first` on. -/
def Event.renumber (first : Nat) : Event → Event
  | .start child env failure => .start (first + child) env failure
  | .send child text failure => .send (first + child) text failure
  | .poll child timeout outcome => .poll (first + child) timeout outcome
  | .hasExited child exited => .hasExited (first + child) exited
  | .teardown child answer => .teardown (first + child) answer
  | .write text failure => .write text failure
  | .flush failure => .flush failure
  | .sleep duration => .sleep duration
  | .warn warning => .warn warning

/-- How a run ends when its report counts on top of others. -/
def Outcome.countedFrom (past : Report) : Outcome → Outcome
  | .finished report => .finished (past.add report)
  | .failed error => .failed error
  | .unfinished => .unfinished

/-- What a runner has from earlier runs, apart from variables and skip mode. -/
structure Past where
  /-- What was counted. -/
  report : Report
  /-- How many children were started. -/
  started : Nat
  /-- What happened, the latest first. -/
  history : List Event

namespace Past

variable {β σ α γ δ ε : Type} (past : Past)

/-- A state that is reached from a past instead of a fresh start. -/
def before (t : RunState β σ) : RunState β σ where
  core := t.core
  child := t.child.map (past.started + ·)
  report := past.report.add t.report
  host := t.host
  sink := t.sink
  started := past.started + t.started
  history := t.history.map (Event.renumber past.started) ++ past.history

/-- The events of a state that is reached from a past come after those of the past. -/
theorem events_before (t : RunState β σ) :
    (past.before t).events =
      past.history.reverse ++ t.events.map (Event.renumber past.started) := by
  rw [RunState.events, RunState.events, before, List.reverse_append, List.map_reverse]

/-- Whether a part of a run does with a past what another one does without: it gives the
value that belongs to the other's, and the past stays as it is. -/
def Repeats (value : δ → ε) (part : Action β σ ε) (fresh : Action β σ δ) : Prop :=
  ∀ t, part.run.run (past.before t) =
    ((fresh.run.run t).1.map value, past.before (fresh.run.run t).2)

variable {past}

/-- Parts in a row repeat others if each of them does. -/
theorem Repeats.bind {value : δ → ε} {value' : α → γ} {part : Action β σ ε}
    {fresh : Action β σ δ} {next : ε → Action β σ γ} {next' : δ → Action β σ α}
    (h : past.Repeats value part fresh)
    (hnext : ∀ a, past.Repeats value' (next (value a)) (next' a)) :
    past.Repeats value' (part >>= next) (fresh >>= next') := by
  intro t
  rw [Runner.run_bind, Runner.run_bind, h t]
  rcases hfresh : fresh.run.run t with ⟨result, t'⟩
  cases result with
  | ok a => exact hnext a t'
  | error halt => rfl

/-- Giving a value is repeated. -/
theorem repeats_pure (value : δ → ε) (a : δ) :
    past.Repeats value (pure (value a) : Action β σ ε) (pure a) :=
  fun _ => rfl

/-- Looking at the state is repeated. -/
theorem repeats_get : past.Repeats past.before (get : Action β σ (RunState β σ)) get :=
  fun _ => rfl

/-- A check is repeated. -/
theorem repeats_check (failure : Option Fault) (error : Fault → RunError) :
    past.Repeats id (Runner.check failure error : Action β σ Unit)
      (Runner.check failure error) := by
  cases failure with
  | none => exact repeats_pure id ()
  | some fault => exact fun _ => rfl

/-- Counting is repeated. -/
theorem repeats_count {change : Report → Report} (h : Report.Counting change) :
    past.Repeats id (Runner.count change : Action β σ Unit) (Runner.count change) := by
  intro t
  have hcount : past.before { t with report := change t.report } =
      { past.before t with report := change (past.before t).report } := by
    rw [before, h.add]
    rfl
  exact Prod.ext rfl hcount.symm

/-- Noting an event is repeated, but for the numbers of children. -/
theorem repeats_note (event : Event) :
    past.Repeats id (Runner.note (event.renumber past.started) : Action β σ Unit)
      (Runner.note event) :=
  fun _ => rfl

/-- Turning a text into its command is repeated. -/
theorem repeats_step (text : String) :
    past.Repeats id (Runner.step text : Action β σ Command) (Runner.step text) :=
  fun _ => rfl

/-- Taking on a child is repeated, under the number that the past leaves for it. -/
theorem repeats_adopt : past.Repeats id (Runner.adopt : Action β σ Unit) Runner.adopt :=
  fun _ => rfl

end Past

namespace Runner

variable {β σ : Type}

/-- A runner whose host is asked for its children by numbers that begin at `first`. -/
def numberedFrom (r : Runner β σ) (first : Nat) : Runner β σ :=
  { r with host := r.host.numberedFrom first }

end Runner

namespace Past

variable {β σ : Type} (past : Past) (r : Runner β σ)

/-- Writing a line is repeated. -/
theorem repeats_writeLine (line : String) :
    past.Repeats id (r.writeLine line) ((r.numberedFrom past.started).writeLine line) := by
  intro t
  rw [r.writeLine_run, (r.numberedFrom past.started).writeLine_run]
  have hid {δ : Type} (result : Except Halt δ) : result.map id = result := by
    cases result <;> rfl
  rw [hid]
  rfl

/-- Trying to flush is repeated. -/
theorem repeats_tryFlush :
    past.Repeats id r.tryFlush (r.numberedFrom past.started).tryFlush :=
  fun _ => rfl

/-- A flush is repeated. -/
theorem repeats_flush : past.Repeats id r.flush (r.numberedFrom past.started).flush :=
  (past.repeats_tryFlush r).bind fun failure => repeats_check failure .io

/-- The end of the child is repeated. -/
theorem repeats_tryTeardown :
    past.Repeats id r.tryTeardown (r.numberedFrom past.started).tryTeardown := by
  intro t
  cases hchild : t.child with
  | none =>
    have hnone : (past.before t).child = none := by
      rw [before, hchild]
      rfl
    rw [(r.tryTeardown_does_nothing hnone).ends,
      ((r.numberedFrom past.started).tryTeardown_does_nothing hchild).ends]
    rfl
  | some child =>
    have hsome : (past.before t).child = some (past.started + child) := by
      rw [before, hchild]
      rfl
    have hending (answer : Teardown) :
        (Event.ending child answer).map (Event.renumber past.started) =
          Event.ending (past.started + child) answer := by
      obtain ⟨failure, killedAfter⟩ := answer
      cases killedAfter <;> rfl
    rw [r.tryTeardown_run hsome, (r.numberedFrom past.started).tryTeardown_run hchild]
    refine Prod.ext rfl ?_
    simp only [before, List.map_append, List.map_reverse, hending, List.append_assoc]
    rfl

/-- A start is repeated. -/
theorem repeats_tryStart (env : Environment) :
    past.Repeats id (r.tryStart env) ((r.numberedFrom past.started).tryStart env) :=
  fun _ => rfl

/-- Handing a text to a child is repeated. -/
theorem repeats_trySend (child : Nat) (text : String) :
    past.Repeats id (r.trySend (past.started + child) text)
      ((r.numberedFrom past.started).trySend child text) :=
  fun _ => rfl

/-- A poll is repeated. -/
theorem repeats_poll (child : Nat) :
    past.Repeats id (r.poll (past.started + child))
      ((r.numberedFrom past.started).poll child) :=
  fun _ => rfl

/-- The question whether a child has ended is repeated. -/
theorem repeats_hasExited (child : Nat) :
    past.Repeats id (r.hasExited (past.started + child))
      ((r.numberedFrom past.started).hasExited child) :=
  fun _ => rfl

/-- A wait is repeated. -/
theorem repeats_sleep (duration : Duration) :
    past.Repeats id (r.sleep duration) ((r.numberedFrom past.started).sleep duration) :=
  fun _ => rfl

/-- A drain is repeated. -/
theorem repeats_drain (child left : Nat) :
    past.Repeats id (r.drain (past.started + child) left)
      ((r.numberedFrom past.started).drain child left) := by
  induction left with
  | zero => exact fun _ => rfl
  | succ left ih =>
    refine (past.repeats_poll r child).bind fun outcome => ?_
    cases outcome with
    | timeout => exact past.repeats_flush r
    | endOfStream => exact past.repeats_flush r
    | line output =>
      refine (past.repeats_writeLine r _).bind fun _ => (repeats_count .echoed).bind fun _ => ?_
      refine (past.repeats_hasExited r child).bind fun exited => ?_
      cases exited with
      | true => exact past.repeats_flush r
      | false => exact ih

/-- A command is repeated. -/
theorem repeats_execute (line : Line) (command : Command) :
    past.Repeats id (r.execute line command)
      ((r.numberedFrom past.started).execute line command) := by
  cases command with
  | nothing => exact repeats_pure id ()
  | skipMode on => exact past.repeats_writeLine r _
  | restart env =>
    refine (past.repeats_tryTeardown r).bind fun failure => ?_
    refine (repeats_check failure .io).bind fun _ => ?_
    refine (past.repeats_tryStart r env).bind fun failure => ?_
    exact (repeats_check failure (.spawn line.number line.text r.host.program)).bind fun _ =>
      repeats_adopt
  | send text =>
    refine repeats_get.bind fun t => ?_
    cases hchild : t.child with
    | none =>
      have hnone : (past.before t).child = none := by
        rw [before, hchild]
        rfl
      simp only [hnone]
      exact repeats_count .dropped
    | some child =>
      have hsome : (past.before t).child = some (past.started + child) := by
        rw [before, hchild]
        rfl
      simp only [hsome]
      refine (past.repeats_writeLine r _).bind fun _ => (past.repeats_flush r).bind fun _ => ?_
      refine (past.repeats_trySend r child text).bind fun failure => ?_
      refine (repeats_check failure (.write line.number text)).bind fun _ => ?_
      exact (repeats_count .sent).bind fun _ => past.repeats_drain r child r.patience
  | delay duration =>
    refine (past.repeats_writeLine r _).bind fun _ => (past.repeats_flush r).bind fun _ => ?_
    exact past.repeats_sleep r duration
  | malformed reason =>
    exact (repeats_count .warnings).bind fun _ => repeats_note (.warn (.malformed line reason))

/-- A line is repeated. -/
theorem repeats_runLine (line : Line) :
    past.Repeats id (r.runLine line) ((r.numberedFrom past.started).runLine line) :=
  (repeats_count .lines).bind fun _ => (repeats_step line.text).bind fun command =>
    past.repeats_execute r line command

/-- Lines in turn are repeated. -/
theorem repeats_runLines (lines : List Line) :
    past.Repeats id (r.runLines lines) ((r.numberedFrom past.started).runLines lines) := by
  induction lines with
  | nil => exact repeats_pure id ()
  | cons line rest ih => exact (past.repeats_runLine r line).bind fun _ => ih

/-- A script is repeated. -/
theorem repeats_runScript (script : Script) :
    past.Repeats id (r.runScript script) ((r.numberedFrom past.started).runScript script) :=
  (past.repeats_runLines r script.lines).bind fun _ => repeats_check script.failure .io

/-- The conclusion of a run is repeated, with a report that counts on top of the past. -/
theorem repeats_conclude (stopped : Except Halt Unit) :
    past.Repeats (Outcome.countedFrom past.report) (r.conclude stopped)
      ((r.numberedFrom past.started).conclude stopped) := by
  refine (past.repeats_tryTeardown r).bind fun cleanup => ?_
  refine (past.repeats_tryFlush r).bind fun _ => ?_
  match stopped, cleanup with
  | .error (.failed error), none => exact fun _ => rfl
  | .error (.failed error), some fault => exact fun _ => rfl
  | .error .unfinished, _ => exact fun _ => rfl
  | .ok (), some fault => exact fun _ => rfl
  | .ok (), none => exact fun _ => rfl

/-- A run with a past is the run without, and leaves the past as it is. -/
theorem run_before (script : Script) (t : RunState β σ) :
    r.run script (past.before t) =
      (((r.numberedFrom past.started).run script t).1.countedFrom past.report,
        past.before ((r.numberedFrom past.started).run script t).2) := by
  have hscript := past.repeats_runScript r script t
  rcases hfresh : ((r.numberedFrom past.started).runScript script).run.run t with ⟨stopped, t'⟩
  rw [hfresh] at hscript
  have hstopped : stopped.map id = stopped := by cases stopped <;> rfl
  rw [hstopped] at hscript
  by_cases hunfinished : stopped = .error .unfinished
  · subst hunfinished
    rw [Runner.run, Runner.run, hscript, hfresh]
    rfl
  · have hconclude := past.repeats_conclude r stopped t'
    rw [r.run_eq_conclude hscript hunfinished,
      (r.numberedFrom past.started).run_eq_conclude hfresh hunfinished, hconclude]
    rcases ((r.numberedFrom past.started).conclude stopped).run.run t' with ⟨result, t''⟩
    cases result <;> rfl

end Past

namespace RunState

variable {β σ : Type}

/-- What a state has from earlier runs. -/
def past (s : RunState β σ) : Past := ⟨s.report, s.started, s.history⟩

/-- A fresh start with the variables, the skip mode and the parties of a state. -/
def fresh (s : RunState β σ) : RunState β σ :=
  { core := s.core, host := s.host, sink := s.sink }

/-- A state without a child is a fresh one with a past. -/
theorem past_before_fresh {s : RunState β σ} (h : s.child = none) :
    s.past.before s.fresh = s := by
  obtain ⟨core, child, report, host, sink, started, history⟩ := s
  dsimp only at h
  subst h
  rfl

end RunState

namespace Runner

variable {β σ : Type}

/-- Each of scripts in a row is run from the state that the one before has left, in which no
child lives. -/
theorem runAll_run (r : Runner β σ) (scripts : List Script) {s s' : RunState β σ} {k : Nat}
    {outcome : Outcome} (hstart : s.child = none)
    (h : (r.runAll scripts s)[k]? = some (outcome, s')) :
    ∃ script before, scripts[k]? = some script ∧
      (s :: (r.runAll scripts s).map Prod.snd)[k]? = some before ∧ before.child = none ∧
      r.run script before = (outcome, s') := by
  induction scripts generalizing s k with
  | nil => simp [runAll] at h
  | cons script rest ih =>
    rcases hrun : r.run script s with ⟨first, s₁⟩
    have hhere (hsame : (first, s₁) = (outcome, s')) :
        ∃ script' before, (script :: rest)[0]? = some script' ∧
          (s :: (r.runAll (script :: rest) s).map Prod.snd)[0]? = some before ∧
          before.child = none ∧ r.run script' before = (outcome, s') :=
      ⟨script, s, rfl, rfl, hstart, hrun.trans hsame⟩
    by_cases hunfinished : first = .unfinished
    · rw [runAll, hrun, if_pos hunfinished] at h
      cases k with
      | zero => exact hhere (Option.some.inj h)
      | succ k => simp at h
    · have hall : r.runAll (script :: rest) s = (first, s₁) :: r.runAll rest s₁ := by
        rw [runAll, hrun, if_neg hunfinished]
      rw [hall] at h
      cases k with
      | zero => exact hhere (Option.some.inj h)
      | succ k =>
        obtain ⟨events, _, _, hran⟩ := ran_of_run hrun
        have hnone : s₁.child = none := hran.child_eq_none hunfinished
        obtain ⟨script', before, hscript, hbefore, hchild, hlast⟩ := ih hnone h
        refine ⟨script', before, hscript, ?_, hchild, hlast⟩
        rw [hall]
        exact hbefore

/-- Whatever became of the scripts before it, each of scripts in a row ends as a fresh runner
ends with it that has the variables and the skip mode left by those before: with the same
result, calls, variables and skip mode, and the same state of the host and of the sink. What
the fresh runner counts comes on top of what was counted, its children are numbered on, and
the numbers of lines begin at 1 again. -/
theorem runAll_repeats (r : Runner β σ) (scripts : List Script) {s s' : RunState β σ} {k : Nat}
    {outcome : Outcome} (hstart : s.child = none)
    (h : (r.runAll scripts s)[k]? = some (outcome, s')) :
    ∃ script before ended t, scripts[k]? = some script ∧
      (s :: (r.runAll scripts s).map Prod.snd)[k]? = some before ∧
      (r.numberedFrom before.started).run script
        { core := before.core, host := before.host, sink := before.sink } = (ended, t) ∧
      outcome = ended.countedFrom before.report ∧ s'.core = t.core ∧ s'.host = t.host ∧
      s'.sink = t.sink ∧ s'.child = t.child.map (before.started + ·) ∧
      s'.report = before.report.add t.report ∧
      s'.events = before.events ++ t.events.map (Event.renumber before.started) ∧
      ∀ baseDir source, script = Script.read baseDir source →
        script.lines.map Line.number = List.range' 1 script.lines.length := by
  obtain ⟨script, before, hscript, hbefore, hchild, hrun⟩ := r.runAll_run scripts hstart h
  rcases hfresh : (r.numberedFrom before.started).run script before.fresh with ⟨ended, t⟩
  have hrepeat := before.past.run_before r script before.fresh
  rw [RunState.past_before_fresh hchild, hrun] at hrepeat
  have hnumbered : (r.numberedFrom before.past.started).run script before.fresh = (ended, t) :=
    hfresh
  rw [hnumbered] at hrepeat
  obtain ⟨houtcome, hlast⟩ := Prod.mk.inj hrepeat
  refine ⟨script, before, ended, t, hscript, hbefore, hfresh, houtcome, ?_⟩
  subst hlast
  refine ⟨rfl, rfl, rfl, rfl, rfl, before.past.events_before t, ?_⟩
  rintro baseDir source rfl
  exact Script.read_numbers baseDir source

/-- A script that leaves a variable behind. -/
def leavesVariable : Script := ⟨"/", [⟨1, "ENV K v"⟩, ⟨2, "RESTART"⟩, ⟨3, "a"⟩], none⟩

/-- A script with one text for its child. -/
def oneText : Script := ⟨"/", [⟨1, "RESTART"⟩, ⟨2, "b"⟩], none⟩

/-- A child that takes no text, and one that answers. -/
def closedThenAnswering : List ChildPlan :=
  [{ sendFailure := some (0, Fault.brokenPipe) }, { replies := [[.line "c"]] }]

/-- A script that fails at a text, which its child does not take, leaves a variable and one
started child; the next script runs as on a fresh runner that numbers its children from 1. -/
theorem runAll_repeats_after_refused_text :
    ∃ before s' : RunState ScriptedState LimitedSink, ∃ ended t,
      (planned.runAll [leavesVariable, oneText] (.planned closedThenAnswering))[1]? =
        some (.finished { lines := 5, restarts := 2, sent := 1, echoed := 1 }, s') ∧
      (planned.numberedFrom 1).run oneText
        { core := before.core, host := before.host, sink := before.sink } = (ended, t) ∧
      ended.countedFrom before.report =
        .finished { lines := 5, restarts := 2, sent := 1, echoed := 1 } ∧
      s'.events = before.events ++ t.events.map (Event.renumber 1) := by
  have hrun : (planned.runAll [leavesVariable, oneText] (.planned closedThenAnswering)).map
        (fun result => (result.1, result.2.started)) =
      [(.failed (.write 3 "a" Fault.brokenPipe), 1),
        (.finished { lines := 5, restarts := 2, sent := 1, echoed := 1 }, 2)] := by
    decide +kernel
  obtain ⟨⟨first, before⟩, rest, hall, hfirst, hrest⟩ := List.map_eq_cons_iff.mp hrun
  obtain ⟨⟨outcome, s'⟩, _, rfl, hsecond, _⟩ := List.map_eq_cons_iff.mp hrest
  obtain ⟨_, hstarted⟩ := Prod.mk.inj hfirst
  obtain ⟨houtcome, _⟩ := Prod.mk.inj hsecond
  dsimp only at hstarted houtcome
  have hget := congrArg (fun results => results[1]?) hall
  obtain ⟨script, before', ended, t, hscript, hbefore, hfresh, hended, _, _, _, _, _, hevents, _⟩ :=
    runAll_repeats planned _ rfl hget
  rw [hall] at hbefore
  cases hbefore
  cases hscript
  rw [hstarted] at hfresh hevents
  rw [houtcome] at hended hget
  exact ⟨before, s', ended, t, hget, hfresh, hended.symm, hevents⟩

end Runner

end LineScript
