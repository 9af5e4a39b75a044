import LineScript.Proofs.Action
import LineScript.Host.Scripted

/-!
# The course of a run

A run seen from outside is a list of events, one for each call with its answer.
The rules of this module say which lists can occur: for one drain, for one
command, for the lines of a script and for a whole run, each with the way it
ends and with what becomes of the runner's books. The rules leave every answer
open. Main result: every run follows them, from any state, and the answers in
its events are those of its host and of its sink.
-/

namespace LineScript

/-- Whether an event is one that may come after the lines of a script: the end of a
child, a flush or a warning. -/
def Event.isEnding : Event → Bool
  | .teardown .. | .flush _ | .warn _ => true
  | _ => false

namespace Runner

variable {β σ : Type} (r : Runner β σ)

/-- The transcript's line for a line of output. -/
def echoLine (output : String) : String := "< " ++ String.ofList (Text.trim output.toList) ++ "\n"

/-- The transcript's line for a text that is sent. -/
def sendLine (text : String) : String := "> " ++ text ++ "\n"

/-- The transcript's line for a wait. -/
def delayLine (duration : Duration) : String :=
  "D: " ++ duration.render Duration.transcriptLayout ++ "\n"

/-- The transcript's line for the begin or the end of a skipped block. -/
def skipLine (on : Bool) : String := (if on then "skip mode on" else "skip mode off") ++ "\n"

/-- The drains of a child, by the number of polls that are still allowed. -/
inductive Drained (child : Nat) : Nat → Books → List Event → Except Halt Unit → Books → Prop
  /-- The bound is reached. -/
  | exhausted {books} : Drained child 0 books [] (.error .unfinished) books
  /-- A poll brings no line. -/
  | quiet {left books outcome failure} (h : ∀ output, outcome ≠ .line output) :
      Drained child (left + 1) books [.poll child r.pollTimeout outcome, .flush failure]
        (Halt.after failure .io) books
  /-- A line of output cannot be written. -/
  | unwritten {left books output fault} :
      Drained child (left + 1) books
        [.poll child r.pollTimeout (.line output), .write (echoLine output) (some fault)]
        (.error (.failed (.io fault))) books
  /-- The child has ended after a line. -/
  | exited {left books output failure} :
      Drained child (left + 1) books
        [.poll child r.pollTimeout (.line output), .write (echoLine output) none,
          .hasExited child true, .flush failure]
        (Halt.after failure .io) books.countEchoed
  /-- The child goes on after a line. -/
  | more {left books output events result books'}
      (h : Drained child left books.countEchoed events result books') :
      Drained child (left + 1) books
        (.poll child r.pollTimeout (.line output) :: .write (echoLine output) none ::
          .hasExited child false :: events)
        result books'

/-- The end of the child, if there is one, with its failure. -/
inductive Ended : Option Nat → List Event → Option Fault → Prop
  /-- There is no child. -/
  | absent : Ended none [] none
  /-- The child is ended. -/
  | called {child answer} : Ended (some child) (Event.ending child answer) answer.failure

/-- The courses of a command at a line. -/
inductive Executed (line : Line) : Command → Books → List Event → Except Halt Unit → Books → Prop
  /-- Nothing is done. -/
  | nothing {books} : Executed line .nothing books [] (.ok ()) books
  /-- The begin or the end of a skipped block is written. -/
  | skipMode {on books failure} :
      Executed line (.skipMode on) books [.write (skipLine on) failure] (Halt.after failure .io)
        books
  /-- The old child cannot be ended. -/
  | unended {env books events fault} (h : Ended books.child events (some fault)) :
      Executed line (.restart env) books events (.error (.failed (.io fault))) books.endChild
  /-- The new child cannot be started. -/
  | unstarted {env books events fault} (h : Ended books.child events none) :
      Executed line (.restart env) books (events ++ [.start books.started env (some fault)])
        (.error (.failed (.spawn line.number line.text r.host.program fault))) books.endChild
  /-- The child is replaced. -/
  | restarted {env books events} (h : Ended books.child events none) :
      Executed line (.restart env) books (events ++ [.start books.started env none]) (.ok ())
        books.startChild
  /-- There is no child for a text. -/
  | dropped {text books} (h : books.child = none) :
      Executed line (.send text) books [] (.ok ()) books.countDropped
  /-- A text cannot be written before it is sent. -/
  | unwritten {text books child fault} (h : books.child = some child) :
      Executed line (.send text) books [.write (sendLine text) (some fault)]
        (.error (.failed (.io fault))) books
  /-- A text cannot be flushed before it is sent. -/
  | unflushed {text books child fault} (h : books.child = some child) :
      Executed line (.send text) books [.write (sendLine text) none, .flush (some fault)]
        (.error (.failed (.io fault))) books
  /-- The child does not take a text. -/
  | refused {text books child fault} (h : books.child = some child) :
      Executed line (.send text) books
        [.write (sendLine text) none, .flush none, .send child text (some fault)]
        (.error (.failed (.write line.number text fault))) books
  /-- The child takes a text and is drained. -/
  | sent {text books child events result books'} (h : books.child = some child)
      (hd : r.Drained child r.patience books.countSent events result books') :
      Executed line (.send text) books
        (.write (sendLine text) none :: .flush none :: .send child text none :: events)
        result books'
  /-- A wait cannot be written. -/
  | unannounced {duration books fault} :
      Executed line (.delay duration) books [.write (delayLine duration) (some fault)]
        (.error (.failed (.io fault))) books
  /-- A wait cannot be flushed. -/
  | unshown {duration books fault} :
      Executed line (.delay duration) books
        [.write (delayLine duration) none, .flush (some fault)] (.error (.failed (.io fault))) books
  /-- The run waits. -/
  | slept {duration books} :
      Executed line (.delay duration) books
        [.write (delayLine duration) none, .flush none, .sleep duration] (.ok ()) books
  /-- A directive is passed over. -/
  | malformed {reason books} :
      Executed line (.malformed reason) books [.warn (.malformed line reason)] (.ok ())
        books.countWarning

/-- What carrying out a line does, and that it follows the rules for the line's
command. -/
structure Carried (line : Line) (s : RunState β σ) (events : List Event)
    (result : Except Halt Unit) (s' : RunState β σ) : Prop where
  /-- The end, the state that is left, and the calls. -/
  does : r.Does (r.runLine line) s events result s'
  /-- The rule for the command. -/
  rule : r.Executed line (s.core.step line.text).1 (s.books.readLine line.text) events result
    s'.books

/-- The courses of lines in turn. -/
inductive Performed : RunState β σ → List Line → List Event → Except Halt Unit → RunState β σ → Prop
  /-- No line is left. -/
  | nil {s} : Performed s [] [] (.ok ()) s
  /-- The script stops at a line. -/
  | stopped {s line rest events halt s'} (h : r.Carried line s events (.error halt) s') :
      Performed s (line :: rest) events (.error halt) s'
  /-- A line is carried out, and the script goes on. -/
  | cons {s line rest events events' result s' s''} (h : r.Carried line s events (.ok ()) s')
      (hrest : Performed s' rest events' result s'') :
      Performed s (line :: rest) (events ++ events') result s''

/-- The warning after a failed run whose clean-up failed too. -/
def farewell (failure : Option Fault) : List Event :=
  (failure.map fun fault => .warn (.cleanupFailed fault)).toList

/-- The courses of a run, with the books after it. Every course that ends has the
clean-up of the child that is left and a closing flush at its end. -/
inductive Ran (script : Script) (s : RunState β σ) : List Event → Outcome → Books → Prop
  /-- A drain reached its bound. -/
  | unfinished {events s₁} (h : r.Performed s script.lines events (.error .unfinished) s₁) :
      Ran script s events .unfinished s₁.books
  /-- A line failed. -/
  | failed {events error s₁ cleanup failure closing}
      (h : r.Performed s script.lines events (.error (.failed error)) s₁)
      (he : Ended s₁.child cleanup failure) :
      Ran script s (events ++ (cleanup ++ .flush closing :: farewell failure)) (.failed error)
        s₁.books.endChild
  /-- All lines were carried out, but reading failed after them. -/
  | unread {events fault s₁ cleanup failure closing}
      (h : r.Performed s script.lines events (.ok ()) s₁) (hread : script.failure = some fault)
      (he : Ended s₁.child cleanup failure) :
      Ran script s (events ++ (cleanup ++ .flush closing :: farewell failure))
        (.failed (.io fault)) s₁.books.endChild
  /-- The script was carried out, but the last child could not be ended. -/
  | unended {events fault s₁ cleanup closing}
      (h : r.Performed s script.lines events (.ok ()) s₁) (hread : script.failure = none)
      (he : Ended s₁.child cleanup (some fault)) :
      Ran script s (events ++ (cleanup ++ [.flush closing])) (.failed (.io fault))
        s₁.books.endChild
  /-- The script was carried out. -/
  | finished {events s₁ cleanup closing}
      (h : r.Performed s script.lines events (.ok ()) s₁) (hread : script.failure = none)
      (he : Ended s₁.child cleanup none) :
      Ran script s (events ++ (cleanup ++ [.flush closing])) (.finished s₁.report)
        s₁.books.endChild

variable {r} in
/-- A drain counts lines of output, and leaves the rest of the books alone. -/
theorem Drained.books_eq {child left : Nat} {books books' : Books} {events : List Event}
    {result : Except Halt Unit} (h : r.Drained child left books events result books') :
    books' = { books with report := { books.report with echoed := books'.report.echoed } } := by
  induction h with
  | more _ ih => exact ih
  | _ => rfl

variable {r} in
/-- A command leaves variables and skip mode alone. -/
theorem Executed.core_eq {line : Line} {command : Command} {books books' : Books}
    {events : List Event} {result : Except Halt Unit}
    (h : r.Executed line command books events result books') : books'.core = books.core := by
  cases h with
  | sent _ hdrained =>
    rw [hdrained.books_eq]
    rfl
  | _ => rfl

/-- The end of a child may come after the lines. -/
theorem Ended.isEnding {child : Option Nat} {events : List Event} {failure : Option Fault}
    (h : Ended child events failure) : ∀ event ∈ events, event.isEnding = true := by
  cases h with
  | absent => exact List.forall_mem_nil _
  | @called child answer =>
    obtain ⟨failure, killedAfter⟩ := answer
    cases killedAfter <;> simp [Event.ending, Event.isEnding]

variable {r} in
/-- Every run does the work on its lines and then at most what comes after lines. -/
theorem Ran.ending {script : Script} {s : RunState β σ} {books' : Books} {events : List Event}
    {outcome : Outcome} (h : r.Ran script s events outcome books') :
    ∃ work result s₁ closing, r.Performed s script.lines work result s₁ ∧
      events = work ++ closing ∧ (∀ event ∈ closing, event.isEnding = true) ∧
      books'.report = s₁.report ∧
      (∀ error, result = .error (.failed error) → outcome = .failed error) ∧
      ∀ report, outcome = .finished report → result = .ok () := by
  have hlast {child : Option Nat} {cleanup : List Event} {failure : Option Fault}
      (hended : Ended child cleanup failure) (closing failed : Option Fault) :
      ∀ event ∈ cleanup ++ .flush closing :: farewell failed, event.isEnding = true := by
    refine List.forall_mem_append.mpr ⟨hended.isEnding, ?_⟩
    cases failed <;> simp [farewell, Event.isEnding]
  cases h with
  | unfinished hlines =>
    exact ⟨_, _, _, [], hlines, (List.append_nil _).symm, List.forall_mem_nil _, rfl, nofun, nofun⟩
  | failed hlines hended =>
    refine ⟨_, _, _, _, hlines, rfl, hlast hended _ _, rfl, ?_, nofun⟩
    rintro _ ⟨⟩
    rfl
  | unread hlines _ hended =>
    exact ⟨_, _, _, _, hlines, rfl, hlast hended _ _, rfl, nofun, nofun⟩
  | unended hlines _ hended =>
    exact ⟨_, _, _, _, hlines, rfl, hlast hended _ none, rfl, nofun, nofun⟩
  | finished hlines _ hended =>
    exact ⟨_, _, _, _, hlines, rfl, hlast hended _ none, rfl, nofun, fun _ _ => rfl⟩

/-- Whether a part of a run follows a rule about events and books, from every
state. -/
def Follows (part : Action β σ Unit)
    (rule : Books → List Event → Except Halt Unit → Books → Prop) : Prop :=
  ∀ s, ∃ events result s', r.Does part s events result s' ∧ rule s.books events result s'.books

/-- Every drain follows its rule. -/
theorem drain_follows (child left : Nat) :
    r.Follows (r.drain child left) (r.Drained child left) := by
  induction left with
  | zero => exact fun s => ⟨[], _, s, ⟨rfl, rfl, rfl⟩, .exhausted⟩
  | succ left ih =>
    intro s
    obtain ⟨outcome, s₁, hpoll, hb₁⟩ := r.poll_does child s
    cases outcome with
    | timeout =>
      obtain ⟨failure, s₂, hflush, hb₂⟩ := r.flush_does s₁
      refine ⟨_, _, s₂, hpoll.bind hflush, ?_⟩
      rw [hb₂, hb₁]
      exact .quiet nofun
    | endOfStream =>
      obtain ⟨failure, s₂, hflush, hb₂⟩ := r.flush_does s₁
      refine ⟨_, _, s₂, hpoll.bind hflush, ?_⟩
      rw [hb₂, hb₁]
      exact .quiet nofun
    | line output =>
      obtain ⟨failure, s₂, hwrite, hb₂⟩ :=
        r.writeLine_does ("< " ++ String.ofList (Text.trim output.toList)) s₁
      cases failure with
      | some fault =>
        refine ⟨_, _, s₂, hpoll.bind (hwrite.stop _), ?_⟩
        rw [hb₂, hb₁]
        exact .unwritten
      | none =>
        obtain ⟨s₃, hcount, hb₃⟩ :=
          r.count_does (fun report => { report with echoed := report.echoed + 1 }) s₂
        obtain ⟨exited, s₄, hexited, hb₄⟩ := r.hasExited_does child s₃
        cases exited with
        | true =>
          obtain ⟨failure, s₅, hflush, hb₅⟩ := r.flush_does s₄
          refine ⟨_, _, s₅, hpoll.bind (hwrite.bind (hcount.bind (hexited.bind hflush))), ?_⟩
          rw [hb₅, hb₄, hb₃, hb₂, hb₁]
          exact .exited
        | false =>
          obtain ⟨events, result, s₅, hdrain, hrule⟩ := ih s₄
          refine ⟨_, _, s₅, hpoll.bind (hwrite.bind (hcount.bind (hexited.bind hdrain))), ?_⟩
          rw [hb₄, hb₃, hb₂, hb₁] at hrule
          exact .more hrule

/-- Ending the child follows its rule, and leaves the runner without one. -/
theorem tryTeardown_ends (s : RunState β σ) :
    ∃ events failure s', r.Does r.tryTeardown s events (.ok failure) s' ∧
      Ended s.child events failure ∧ s'.books = s.books.endChild := by
  cases h : s.child with
  | none =>
    refine ⟨[], none, s, r.tryTeardown_does_nothing h, .absent, ?_⟩
    simp only [RunState.books, Books.endChild, h]
  | some child =>
    obtain ⟨answer, s', hend, hbooks⟩ := r.tryTeardown_does h
    exact ⟨_, _, s', hend, .called, hbooks⟩

/-- Replacing the child follows the rules for a command. -/
theorem restart_follows (line : Line) (env : Environment) :
    r.Follows (r.restart line env) (r.Executed line (.restart env)) := by
  intro s
  obtain ⟨events, failure, s₁, hend, hended, hb₁⟩ := r.tryTeardown_ends s
  cases failure with
  | some fault =>
    refine ⟨_, _, s₁, hend.bind ((r.check_does _ _ _).stop _), ?_⟩
    rw [hb₁, List.append_nil]
    exact .unended hended
  | none =>
    obtain ⟨failure, s₂, hstart, hb₂⟩ := r.tryStart_does env s₁
    have hstarted : s₁.started = s.books.started := congrArg Books.started hb₁
    rw [hstarted] at hstart
    cases failure with
    | some fault =>
      refine ⟨_, _, s₂, hend.bind ((r.check_does none _ _).bind
        (hstart.bind ((r.check_does _ _ _).stop _))), ?_⟩
      rw [hb₂, hb₁]
      exact .unstarted hended
    | none =>
      obtain ⟨s₃, hadopt, hb₃⟩ := r.adopt_does s₂
      refine ⟨_, _, s₃, hend.bind ((r.check_does none _ _).bind
        (hstart.bind ((r.check_does none _ _).bind hadopt))), ?_⟩
      rw [hb₃, hb₂, hb₁]
      exact .restarted hended

/-- Sending a text to the child follows the rules for a command. -/
theorem sendTo_follows (line : Line) (text : String) {child : Nat} {s : RunState β σ}
    (h : s.child = some child) :
    ∃ events result s', r.Does (r.sendTo line child text) s events result s' ∧
      r.Executed line (.send text) s.books events result s'.books := by
  obtain ⟨failure, s₁, hwrite, hb₁⟩ := r.writeLine_does ("> " ++ text) s
  cases failure with
  | some fault =>
    refine ⟨_, _, s₁, hwrite.stop _, ?_⟩
    rw [hb₁]
    exact .unwritten h
  | none =>
    obtain ⟨failure, s₂, hflush, hb₂⟩ := r.flush_does s₁
    cases failure with
    | some fault =>
      refine ⟨_, _, s₂, hwrite.bind (hflush.stop _), ?_⟩
      rw [hb₂, hb₁]
      exact .unflushed h
    | none =>
      obtain ⟨failure, s₃, hsend, hb₃⟩ := r.trySend_does child text s₂
      cases failure with
      | some fault =>
        refine ⟨_, _, s₃, hwrite.bind (hflush.bind (hsend.bind ((r.check_does _ _ _).stop _))), ?_⟩
        rw [hb₃, hb₂, hb₁]
        exact .refused h
      | none =>
        obtain ⟨s₄, hcount, hb₄⟩ :=
          r.count_does (fun report => { report with sent := report.sent + 1 }) s₃
        obtain ⟨events, result, s₅, hdrain, hrule⟩ := r.drain_follows child r.patience s₄
        refine ⟨_, _, s₅, hwrite.bind (hflush.bind (hsend.bind ((r.check_does none _ _).bind
          (hcount.bind hdrain)))), ?_⟩
        rw [hb₄, hb₃, hb₂, hb₁] at hrule
        exact .sent h hrule

/-- Sending a text follows the rules for a command. -/
theorem send_follows (line : Line) (text : String) :
    r.Follows (r.send line text) (r.Executed line (.send text)) := by
  intro s
  cases h : s.child with
  | none =>
    obtain ⟨s', hcount, hbooks⟩ :=
      r.count_does (fun report => { report with dropped := report.dropped + 1 }) s
    refine ⟨[], .ok (), s', (r.get_does s).bind ?_, ?_⟩
    · simp only [h]
      exact hcount
    · rw [hbooks]
      exact .dropped h
  | some child =>
    obtain ⟨events, result, s', hsend, hrule⟩ := r.sendTo_follows line text h
    refine ⟨events, result, s', (r.get_does s).bind ?_, hrule⟩
    simp only [h]
    exact hsend

/-- A wait follows the rules for a command. -/
theorem delay_follows (line : Line) (duration : Duration) :
    r.Follows (r.delay duration) (r.Executed line (.delay duration)) := by
  intro s
  obtain ⟨failure, s₁, hwrite, hb₁⟩ :=
    r.writeLine_does ("D: " ++ duration.render Duration.transcriptLayout) s
  cases failure with
  | some fault =>
    refine ⟨_, _, s₁, hwrite.stop _, ?_⟩
    rw [hb₁]
    exact .unannounced
  | none =>
    obtain ⟨failure, s₂, hflush, hb₂⟩ := r.flush_does s₁
    cases failure with
    | some fault =>
      refine ⟨_, _, s₂, hwrite.bind (hflush.stop _), ?_⟩
      rw [hb₂, hb₁]
      exact .unshown
    | none =>
      obtain ⟨s₃, hsleep, hb₃⟩ := r.sleep_does duration s₂
      refine ⟨_, _, s₃, hwrite.bind (hflush.bind hsleep), ?_⟩
      rw [hb₃, hb₂, hb₁]
      exact .slept

/-- Every command follows its rules. -/
theorem execute_follows (line : Line) (command : Command) :
    r.Follows (r.execute line command) (r.Executed line command) := by
  cases command with
  | nothing => exact fun s => ⟨[], .ok (), s, ⟨rfl, rfl, rfl⟩, .nothing⟩
  | skipMode on =>
    intro s
    obtain ⟨failure, s', hwrite, hbooks⟩ :=
      r.writeLine_does (if on then "skip mode on" else "skip mode off") s
    refine ⟨_, _, s', hwrite, ?_⟩
    rw [hbooks]
    exact .skipMode
  | restart env => exact r.restart_follows line env
  | send text => exact r.send_follows line text
  | delay duration => exact r.delay_follows line duration
  | malformed reason =>
    intro s
    obtain ⟨s₁, hcount, hb₁⟩ :=
      r.count_does (fun report => { report with warnings := report.warnings + 1 }) s
    obtain ⟨s₂, hwarn, hb₂⟩ := r.warn_does (.malformed line reason) s₁
    refine ⟨_, _, s₂, hcount.bind hwarn, ?_⟩
    rw [hb₂, hb₁]
    exact .malformed

/-- A line follows the rules for its command. -/
theorem runLine_follows (line : Line) (s : RunState β σ) :
    ∃ events result s', r.Carried line s events result s' := by
  obtain ⟨s₁, hcount, hb₁⟩ :=
    r.count_does (fun report => { report with lines := report.lines + 1 }) s
  obtain ⟨s₂, hstep, hb₂⟩ := r.step_does line.text s₁
  have hcore : s₁.core = s.core := congrArg Books.core hb₁
  rw [hcore] at hstep hb₂
  obtain ⟨events, result, s₃, hexecute, hrule⟩ :=
    r.execute_follows line (s.core.step line.text).1 s₂
  refine ⟨_, _, s₃, hcount.bind (hstep.bind hexecute), ?_⟩
  rw [hb₂, hb₁] at hrule
  exact hrule

/-- Carrying out a line steps the core. -/
theorem runLine_core (line : Line) (s : RunState β σ) :
    ((r.runLine line).run.run s).2.core = (s.core.step line.text).2 := by
  obtain ⟨events, result, s', hline⟩ := r.runLine_follows line s
  rw [hline.does.ends]
  exact hline.rule.core_eq

/-- Lines in turn follow their rules. -/
theorem runLines_follows (lines : List Line) (s : RunState β σ) :
    ∃ events result s', r.Performed s lines events result s' := by
  induction lines generalizing s with
  | nil => exact ⟨[], .ok (), s, .nil⟩
  | cons line rest ih =>
    obtain ⟨events, result, s₁, hline⟩ := r.runLine_follows line s
    cases result with
    | error halt => exact ⟨events, _, s₁, .stopped hline⟩
    | ok =>
      obtain ⟨events', result, s₂, hrest⟩ := ih s₁
      exact ⟨events ++ events', result, s₂, .cons hline hrest⟩

/-- The course of lines is what carrying them out does. -/
theorem Performed.does {s s' : RunState β σ} {lines : List Line} {events : List Event}
    {result : Except Halt Unit} (h : r.Performed s lines events result s') :
    r.Does (r.runLines lines) s events result s' := by
  induction h with
  | nil => exact ⟨rfl, rfl, rfl⟩
  | stopped hline => exact hline.does.stop _
  | cons hline _ ih => exact hline.does.bind ih

/-- A script that stops does so at one line, after carrying out those before it. -/
theorem Performed.stop_cases {s s' : RunState β σ} {lines : List Line} {events : List Event}
    {halt : Halt} (h : r.Performed s lines events (.error halt) s') :
    ∃ before line after first own s₁, lines = before ++ line :: after ∧ events = first ++ own ∧
      r.Performed s before first (.ok ()) s₁ ∧ r.Carried line s₁ own (.error halt) s' := by
  generalize hresult : Except.error halt = result at h
  induction h with
  | nil => cases hresult
  | @stopped s line rest events halt' s' hline =>
    cases hresult
    exact ⟨[], line, rest, [], events, s, rfl, rfl, .nil, hline⟩
  | @cons s line rest events events' result s' s'' hline _ ih =>
    obtain ⟨before, last, after, first, own, s₁, hlines, hevents, hbefore, hlast⟩ := ih hresult
    refine ⟨line :: before, last, after, events ++ first, own, s₁, ?_, ?_, .cons hline hbefore,
      hlast⟩
    · rw [hlines, List.cons_append]
    · rw [hevents, List.append_assoc]

/-- Cleaning up after a failure keeps the failure, whatever happens. -/
theorem conclude_failed (error : RunError) (s : RunState β σ) :
    ∃ cleanup failure closing s',
      r.Does (r.conclude (.error (.failed error))) s
        (cleanup ++ .flush closing :: farewell failure) (.ok (.failed error)) s' ∧
      Ended s.child cleanup failure ∧ s'.books = s.books.endChild := by
  obtain ⟨cleanup, failure, s₁, hend, hended, hb₁⟩ := r.tryTeardown_ends s
  obtain ⟨closing, s₂, hflush, hb₂⟩ := r.tryFlush_does s₁
  cases failure with
  | none =>
    exact ⟨cleanup, none, closing, s₂, hend.bind (hflush.bind (r.pure_does _ _)), hended,
      hb₂.trans hb₁⟩
  | some fault =>
    obtain ⟨s₃, hwarn, hb₃⟩ := r.warn_does (.cleanupFailed fault) s₂
    exact ⟨cleanup, some fault, closing, s₃,
      hend.bind (hflush.bind (hwarn.bind (r.pure_does _ _))), hended, hb₃.trans (hb₂.trans hb₁)⟩

/-- Cleaning up after a script that was carried out succeeds exactly if the
child can be ended. -/
theorem conclude_done (s : RunState β σ) :
    ∃ cleanup failure closing s',
      r.Does (r.conclude (.ok ())) s (cleanup ++ [.flush closing])
        (.ok (failure.elim (.finished s.report) fun fault => .failed (.io fault))) s' ∧
      Ended s.child cleanup failure ∧ s'.books = s.books.endChild := by
  obtain ⟨cleanup, failure, s₁, hend, hended, hb₁⟩ := r.tryTeardown_ends s
  obtain ⟨closing, s₂, hflush, hb₂⟩ := r.tryFlush_does s₁
  have hb := hb₂.trans hb₁
  refine ⟨cleanup, failure, closing, s₂, ?_, hended, hb⟩
  cases failure with
  | none =>
    have hreport : s₂.report = s.report := congrArg Books.report hb
    rw [← hreport]
    exact hend.bind (hflush.bind ((r.get_does s₂).bind (r.pure_does _ _)))
  | some fault => exact hend.bind (hflush.bind (r.pure_does _ _))

/-- A script stops with the failure of a line, or else of reading. -/
theorem runScript_does (script : Script) (s : RunState β σ) :
    ∃ events result s', r.Performed s script.lines events result s' ∧
      r.Does (r.runScript script) s events
        (match result with
        | .ok () => Halt.after script.failure .io
        | .error halt => .error halt) s' := by
  obtain ⟨events, result, s', hlines⟩ := r.runLines_follows script.lines s
  refine ⟨events, result, s', hlines, ?_⟩
  cases result with
  | error halt => exact hlines.does.stop _
  | ok =>
    rw [← List.append_nil events]
    exact hlines.does.bind (r.check_does script.failure .io s')

/-- A run whose script is not left unfinished is what the conclusion makes of it. -/
theorem run_eq_conclude {script : Script} {s t : RunState β σ} {stopped : Except Halt Unit}
    (h : (r.runScript script).run.run s = (stopped, t)) (hne : stopped ≠ .error .unfinished) :
    r.run script s =
      match (r.conclude stopped).run.run t with
      | (.ok outcome, t') => (outcome, t')
      | (.error _, t') => (.unfinished, t') := by
  rw [run, h]
  cases stopped with
  | ok => rfl
  | error halt =>
    cases halt with
    | unfinished => exact absurd rfl hne
    | failed error => rfl

/-- A run does what its script does, and then what the conclusion does. -/
theorem run_concludes {script : Script} {s s₁ s₂ : RunState β σ} {events events' : List Event}
    {stopped : Except Halt Unit} {outcome : Outcome}
    (hscript : r.Does (r.runScript script) s events stopped s₁)
    (hconclude : r.Does (r.conclude stopped) s₁ events' (.ok outcome) s₂)
    (hne : stopped ≠ .error .unfinished) :
    r.run script s = (outcome, s₂) ∧ s₂.history = (events ++ events').reverse ++ s.history ∧
      r.Conversation s.parties (events ++ events') s₂.parties := by
  refine ⟨?_, ?_, r.conversation_append hscript.answered hconclude.answered⟩
  · rw [run, hscript.ends]
    cases stopped with
    | ok => simp only [hconclude.ends]
    | error halt =>
      cases halt with
      | unfinished => exact absurd rfl hne
      | failed error => simp only [hconclude.ends]
  · rw [hconclude.noted, hscript.noted, List.reverse_append, List.append_assoc]

/-- Every run follows the rules, and the answers in its events are those of its
host and of its sink. -/
theorem run_follows (script : Script) (s : RunState β σ) :
    ∃ events outcome s', (r.run script s = (outcome, s') ∧
      s'.history = events.reverse ++ s.history ∧ r.Conversation s.parties events s'.parties) ∧
      r.Ran script s events outcome s'.books := by
  obtain ⟨events, result, s₁, hrule, hscript⟩ := r.runScript_does script s
  cases result with
  | error halt =>
    cases halt with
    | unfinished =>
      refine ⟨events, .unfinished, s₁, ⟨?_, hscript.noted, hscript.answered⟩, .unfinished hrule⟩
      rw [run, hscript.ends]
    | failed error =>
      obtain ⟨cleanup, failure, closing, s₂, hconclude, hended, hb⟩ := r.conclude_failed error s₁
      refine ⟨_, _, s₂, r.run_concludes hscript hconclude nofun, ?_⟩
      rw [hb]
      exact .failed hrule hended
  | ok =>
    cases hread : script.failure with
    | some fault =>
      rw [hread] at hscript
      obtain ⟨cleanup, failure, closing, s₂, hconclude, hended, hb⟩ :=
        r.conclude_failed (.io fault) s₁
      refine ⟨_, _, s₂, r.run_concludes hscript hconclude nofun, ?_⟩
      rw [hb]
      exact .unread hrule hread hended
    | none =>
      rw [hread] at hscript
      obtain ⟨cleanup, failure, closing, s₂, hconclude, hended, hb⟩ := r.conclude_done s₁
      refine ⟨_, _, s₂, r.run_concludes hscript hconclude nofun, ?_⟩
      rw [hb]
      cases failure with
      | none => exact .finished hrule hread hended
      | some fault => exact .unended hrule hread hended

variable {r} in
/-- The events of a run come after those before it. -/
theorem ran_of_run {script : Script} {s s' : RunState β σ} {outcome : Outcome}
    (h : r.run script s = (outcome, s')) :
    ∃ events, s'.events = s.events ++ events ∧ r.Conversation s.parties events s'.parties ∧
      r.Ran script s events outcome s'.books := by
  obtain ⟨events, outcome', s₁, ⟨hrun, hhistory, htalk⟩, hran⟩ := r.run_follows script s
  have hsame : (outcome', s₁) = (outcome, s') := hrun.symm.trans h
  cases hsame
  refine ⟨events, ?_, htalk, hran⟩
  rw [RunState.events, RunState.events, hhistory, List.reverse_append, List.reverse_reverse]

variable {r} in
/-- A run that ends in a certain way leaves a state. -/
theorem run_eq_of_fst {script : Script} {s : RunState β σ} {outcome : Outcome}
    (h : (r.run script s).1 = outcome) : ∃ s', r.run script s = (outcome, s') :=
  ⟨(r.run script s).2, Prod.ext h rfl⟩

/-- A runner whose children follow plans, with a patience of three polls. -/
def planned : Runner ScriptedState LimitedSink :=
  ⟨ScriptedState.host "prog", LimitedSink.sink, ⟨0⟩, 3⟩

end Runner

/-- A fresh start with the plans of the children to come. -/
def RunState.planned (coming : List ChildPlan) : RunState ScriptedState LimitedSink :=
  { host := { coming }, sink := {} }

end LineScript
