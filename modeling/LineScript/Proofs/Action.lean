import LineScript.Run

/-!
# What the parts of a run do

Every part of a run is a function of the runner's state that may stop the
script. It makes calls of the host and of the sink and notes each with its
answer. This module says what the small parts do, call by call: by which events
the history grows, how the part ends for each answer, and what becomes of the
runner's own books. The answers in the events are those that the two machines
really give, one after the other. The larger parts are followed in the module
about the course of a run.
-/

namespace LineScript

/-- The states of the two machines that a runner deals with. -/
structure Parties (β σ : Type) where
  /-- The state of the host. -/
  host : β
  /-- The state of the sink. -/
  sink : σ

/-- What a runner keeps for itself, apart from the history. -/
structure Books where
  /-- Variables and skip mode. -/
  core : Core := {}
  /-- The number of the live child. -/
  child : Option Nat := none
  /-- How many children were started so far. -/
  started : Nat := 0
  /-- What was counted. -/
  report : Report := {}

namespace Books

/-- The books once a line was read. -/
def readLine (books : Books) (text : String) : Books :=
  { books with
    core := (books.core.step text).2
    report := { books.report with lines := books.report.lines + 1 } }

/-- The books once a child was started. -/
def startChild (books : Books) : Books :=
  { books with
    child := some books.started
    started := books.started + 1
    report := { books.report with restarts := books.report.restarts + 1 } }

/-- The books once the child was ended. -/
def endChild (books : Books) : Books := { books with child := none }

/-- The books once a text was sent. -/
def countSent (books : Books) : Books :=
  { books with report := { books.report with sent := books.report.sent + 1 } }

/-- The books once a text was dropped. -/
def countDropped (books : Books) : Books :=
  { books with report := { books.report with dropped := books.report.dropped + 1 } }

/-- The books once a line of output was copied. -/
def countEchoed (books : Books) : Books :=
  { books with report := { books.report with echoed := books.report.echoed + 1 } }

/-- The books once a directive was passed over. -/
def countWarning (books : Books) : Books :=
  { books with report := { books.report with warnings := books.report.warnings + 1 } }

end Books

namespace RunState

variable {β σ : Type}

/-- The host and the sink of a state. -/
def parties (s : RunState β σ) : Parties β σ := ⟨s.host, s.sink⟩

/-- The books of a state. -/
def books (s : RunState β σ) : Books := ⟨s.core, s.child, s.started, s.report⟩

end RunState

/-- How a call ends for the script, given its failure. -/
def Halt.after (failure : Option Fault) (error : Fault → RunError) : Except Halt Unit :=
  match failure with
  | none => .ok ()
  | some fault => .error (.failed (error fault))

/-- The events of a child's end: a kill is warned of before the call is noted. -/
def Event.ending (child : Nat) (answer : Teardown) : List Event :=
  (answer.killedAfter.map fun limit => .warn (.killed limit)).toList ++ [.teardown child answer]

namespace Runner

variable {β σ α γ : Type} (r : Runner β σ)

/-- The parties after a call, whatever they answer. -/
def after (p : Parties β σ) : Event → Parties β σ
  | .start child env _ => { p with host := (r.host.start p.host child env).1 }
  | .send child text _ => { p with host := (r.host.send p.host child text).1 }
  | .poll child timeout _ => { p with host := (r.host.poll p.host child timeout).1 }
  | .hasExited child _ => { p with host := (r.host.hasExited p.host child).1 }
  | .teardown child _ => { p with host := (r.host.teardown p.host child).1 }
  | .write text _ => { p with sink := (r.sink.write p.sink text).1 }
  | .flush _ => { p with sink := (r.sink.flush p.sink).1 }
  | .sleep duration => { p with host := r.host.pass p.host duration }
  | .warn _ => p

/-- Whether an event holds the answer that the parties give to its call. -/
def Answers (p : Parties β σ) : Event → Prop
  | .start child env failure => (r.host.start p.host child env).2 = failure
  | .send child text failure => (r.host.send p.host child text).2 = failure
  | .poll child timeout outcome => (r.host.poll p.host child timeout).2 = outcome
  | .hasExited child exited => (r.host.hasExited p.host child).2 = exited
  | .teardown child answer => (r.host.teardown p.host child).2 = answer
  | .write text failure => (r.sink.write p.sink text).2 = failure
  | .flush failure => (r.sink.flush p.sink).2 = failure
  | .sleep _ | .warn _ => True

/-- The parties after calls in turn. -/
def afterAll (p : Parties β σ) (events : List Event) : Parties β σ := events.foldl r.after p

/-- Whether the parties give every answer of a list of events in turn and end
up as `q`. -/
def Conversation (p : Parties β σ) : List Event → Parties β σ → Prop
  | [], q => p = q
  | event :: rest, q => r.Answers p event ∧ Conversation (r.after p event) rest q

/-- A conversation can be held in two pieces. -/
theorem conversation_append {p q t : Parties β σ} {first second : List Event}
    (hfirst : r.Conversation p first q) (hsecond : r.Conversation q second t) :
    r.Conversation p (first ++ second) t := by
  induction first generalizing p with
  | nil =>
    cases hfirst
    exact hsecond
  | cons event rest ih => exact ⟨hfirst.1, ih hfirst.2⟩

/-- A conversation is held up to any place of it, and goes on from there. -/
theorem Conversation.split {r : Runner β σ} {p q : Parties β σ} {first second : List Event}
    (h : r.Conversation p (first ++ second) q) :
    r.Conversation p first (r.afterAll p first) ∧ r.Conversation (r.afterAll p first) second q := by
  induction first generalizing p with
  | nil => exact ⟨rfl, h⟩
  | cons event rest ih =>
    obtain ⟨hrest, hsecond⟩ := ih h.2
    exact ⟨⟨h.1, hrest⟩, hsecond⟩

/-- What a part of a run does in a state: how it ends, which state it leaves,
and the events of the calls that it makes, all answered by the parties. -/
structure Does (part : Action β σ α) (s : RunState β σ) (events : List Event)
    (result : Except Halt α) (s' : RunState β σ) : Prop where
  /-- The end and the state that is left. -/
  ends : part.run.run s = (result, s')
  /-- The history grows by the events. -/
  noted : s'.history = events.reverse ++ s.history
  /-- The parties gave the answers. -/
  answered : r.Conversation s.parties events s'.parties

variable {r}

/-- What a part does comes after what was done before. -/
theorem Does.events_eq {part : Action β σ α} {s s' : RunState β σ} {events : List Event}
    {result : Except Halt α} (h : r.Does part s events result s') :
    s'.events = s.events ++ events := by
  rw [RunState.events, RunState.events, h.noted, List.reverse_append, List.reverse_reverse]

/-- Two parts in a row: the second one runs unless the first one stops the
script. -/
theorem run_bind (part : Action β σ α) (next : α → Action β σ γ) (s : RunState β σ) :
    (part >>= next).run.run s =
      match part.run.run s with
      | (.ok a, s') => (next a).run.run s'
      | (.error halt, s') => (.error halt, s') := by
  change (ExceptT.bindCont next (part.run s).1).run (part.run s).2 = _
  cases h : part.run.run s with
  | mk result s' =>
    have hpart : part.run s = (result, s') := h
    rw [hpart]
    cases result <;> rfl

/-- The events of two parts in a row stand in a row. -/
theorem Does.bind {part : Action β σ α} {next : α → Action β σ γ} {s s' s'' : RunState β σ}
    {events events' : List Event} {a : α} {result : Except Halt γ}
    (h : r.Does part s events (.ok a) s') (hnext : r.Does (next a) s' events' result s'') :
    r.Does (part >>= next) s (events ++ events') result s'' where
  ends := by rw [run_bind, h.ends]; exact hnext.ends
  noted := by rw [hnext.noted, h.noted, List.reverse_append, List.append_assoc]
  answered := r.conversation_append h.answered hnext.answered

/-- After a part that stops the script nothing is done. -/
theorem Does.stop {part : Action β σ α} (next : α → Action β σ γ) {s s' : RunState β σ}
    {events : List Event} {halt : Halt} (h : r.Does part s events (.error halt) s') :
    r.Does (part >>= next) s events (.error halt) s' where
  ends := by rw [run_bind, h.ends]
  noted := h.noted
  answered := h.answered

variable (r)

/-- Giving a value does nothing. -/
theorem pure_does (a : α) (s : RunState β σ) : r.Does (pure a) s [] (.ok a) s := ⟨rfl, rfl, rfl⟩

/-- Looking at the state does nothing. -/
theorem get_does (s : RunState β σ) : r.Does get s [] (.ok s) s := ⟨rfl, rfl, rfl⟩

/-- A check stops the script exactly at a failure, and does nothing. -/
theorem check_does (failure : Option Fault) (error : Fault → RunError) (s : RunState β σ) :
    r.Does (check failure error) s [] (Halt.after failure error) s :=
  ⟨by cases failure <;> rfl, rfl, rfl⟩

/-- Changing the counters does nothing else. -/
theorem count_does (change : Report → Report) (s : RunState β σ) :
    ∃ s', r.Does (count change) s [] (.ok ()) s' ∧
      s'.books = { s.books with report := change s.books.report } :=
  ⟨_, ⟨rfl, rfl, rfl⟩, rfl⟩

/-- Taking on a child does nothing else. -/
theorem adopt_does (s : RunState β σ) :
    ∃ s', r.Does adopt s [] (.ok ()) s' ∧ s'.books = s.books.startChild :=
  ⟨_, ⟨rfl, rfl, rfl⟩, rfl⟩

/-- Turning a line into its command does nothing but step the core. -/
theorem step_does (text : String) (s : RunState β σ) :
    ∃ s', r.Does (step text) s [] (.ok (s.core.step text).1) s' ∧
      s'.books = { s.books with core := (s.core.step text).2 } :=
  ⟨_, ⟨rfl, rfl, rfl⟩, rfl⟩

/-- A warning is noted, and no party hears of it. -/
theorem warn_does (warning : Warning) (s : RunState β σ) :
    ∃ s', r.Does (note (.warn warning)) s [.warn warning] (.ok ()) s' ∧ s'.books = s.books :=
  ⟨_, ⟨rfl, rfl, trivial, rfl⟩, rfl⟩

/-- A line for the transcript is one call of the sink, whose failure stops the
script. -/
theorem writeLine_does (line : String) (s : RunState β σ) :
    ∃ failure s', r.Does (r.writeLine line) s [.write (line ++ "\n") failure]
      (Halt.after failure .io) s' ∧ s'.books = s.books :=
  ⟨_, _, ⟨(r.check_does _ _ _).ends, rfl, rfl, rfl⟩, rfl⟩

/-- What a line for the transcript does to the state. -/
theorem writeLine_run (line : String) (s : RunState β σ) :
    (r.writeLine line).run.run s =
      (Halt.after (r.sink.write s.sink (line ++ "\n")).2 .io,
        { s with
          sink := (r.sink.write s.sink (line ++ "\n")).1
          history := .write (line ++ "\n") (r.sink.write s.sink (line ++ "\n")).2 :: s.history }) :=
  (r.check_does _ _ _).ends

/-- Trying to flush is one call of the sink. -/
theorem tryFlush_does (s : RunState β σ) :
    ∃ failure s', r.Does r.tryFlush s [.flush failure] (.ok failure) s' ∧ s'.books = s.books :=
  ⟨_, _, ⟨rfl, rfl, rfl, rfl⟩, rfl⟩

/-- A flush is one call of the sink, whose failure stops the script. -/
theorem flush_does (s : RunState β σ) :
    ∃ failure s', r.Does r.flush s [.flush failure] (Halt.after failure .io) s' ∧
      s'.books = s.books := by
  obtain ⟨failure, s', hflush, hbooks⟩ := r.tryFlush_does s
  exact ⟨failure, s', hflush.bind (r.check_does _ _ _), hbooks⟩

/-- A start is one call of the host, under the number of children started. -/
theorem tryStart_does (env : Environment) (s : RunState β σ) :
    ∃ failure s', r.Does (r.tryStart env) s [.start s.started env failure] (.ok failure) s' ∧
      s'.books = s.books :=
  ⟨_, _, ⟨rfl, rfl, rfl, rfl⟩, rfl⟩

/-- What a start does to the state. -/
theorem tryStart_run (env : Environment) (s : RunState β σ) :
    (r.tryStart env).run.run s =
      (.ok (r.host.start s.host s.started env).2,
        { s with
          host := (r.host.start s.host s.started env).1
          history := .start s.started env (r.host.start s.host s.started env).2 :: s.history }) :=
  rfl

/-- Handing a text to a child is one call of the host. -/
theorem trySend_does (child : Nat) (text : String) (s : RunState β σ) :
    ∃ failure s', r.Does (r.trySend child text) s [.send child text failure] (.ok failure) s' ∧
      s'.books = s.books :=
  ⟨_, _, ⟨rfl, rfl, rfl, rfl⟩, rfl⟩

/-- What handing out a text does to the state. -/
theorem trySend_run (child : Nat) (text : String) (s : RunState β σ) :
    (r.trySend child text).run.run s =
      (.ok (r.host.send s.host child text).2,
        { s with
          host := (r.host.send s.host child text).1
          history := .send child text (r.host.send s.host child text).2 :: s.history }) :=
  rfl

/-- A poll is one call of the host, with the timeout of the runner. -/
theorem poll_does (child : Nat) (s : RunState β σ) :
    ∃ outcome s', r.Does (r.poll child) s [.poll child r.pollTimeout outcome] (.ok outcome) s' ∧
      s'.books = s.books :=
  ⟨_, _, ⟨rfl, rfl, rfl, rfl⟩, rfl⟩

/-- The question whether a child has ended is one call of the host. -/
theorem hasExited_does (child : Nat) (s : RunState β σ) :
    ∃ exited s', r.Does (r.hasExited child) s [.hasExited child exited] (.ok exited) s' ∧
      s'.books = s.books :=
  ⟨_, _, ⟨rfl, rfl, rfl, rfl⟩, rfl⟩

/-- What the question whether a child has ended does to the state. -/
theorem hasExited_run (child : Nat) (s : RunState β σ) :
    (r.hasExited child).run.run s =
      (.ok (r.host.hasExited s.host child).2,
        { s with
          host := (r.host.hasExited s.host child).1
          history := .hasExited child (r.host.hasExited s.host child).2 :: s.history }) :=
  rfl

/-- A wait lets the host go on. -/
theorem sleep_does (duration : Duration) (s : RunState β σ) :
    ∃ s', r.Does (r.sleep duration) s [.sleep duration] (.ok ()) s' ∧ s'.books = s.books :=
  ⟨_, ⟨rfl, rfl, trivial, rfl⟩, rfl⟩

/-- Without a child there is nothing to end. -/
theorem tryTeardown_does_nothing {s : RunState β σ} (h : s.child = none) :
    r.Does r.tryTeardown s [] (.ok none) s := by
  refine ⟨?_, rfl, rfl⟩
  simp only [tryTeardown, run_bind, (r.get_does s).ends, h]
  rfl

/-- What the end of a child does to the state. -/
theorem tryTeardown_run {s : RunState β σ} {child : Nat} (h : s.child = some child) :
    r.tryTeardown.run.run s =
      (.ok (r.host.teardown s.host child).2.failure,
        { s with
          host := (r.host.teardown s.host child).1
          child := none
          history :=
            (Event.ending child (r.host.teardown s.host child).2).reverse ++ s.history }) := by
  rcases ht : r.host.teardown s.host child with ⟨host, failure, killedAfter⟩
  simp only [tryTeardown, run_bind, (r.get_does s).ends, h, ht]
  cases killedAfter <;> rfl

/-- The end of a child is one call of the host. The runner has no child
afterwards, however the call went. -/
theorem tryTeardown_does {s : RunState β σ} {child : Nat} (h : s.child = some child) :
    ∃ answer s', r.Does r.tryTeardown s (Event.ending child answer) (.ok answer.failure) s' ∧
      s'.books = { s.books with child := none } := by
  refine ⟨(r.host.teardown s.host child).2, _, ⟨r.tryTeardown_run h, rfl, ?_⟩, rfl⟩
  -- A kill adds a warning, which no party hears of.
  cases hkill : (r.host.teardown s.host child).2.killedAfter with
  | none =>
    rw [Event.ending, hkill]
    exact ⟨rfl, rfl⟩
  | some limit =>
    rw [Event.ending, hkill]
    exact ⟨trivial, rfl, rfl⟩

end Runner

end LineScript
