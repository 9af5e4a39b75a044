import LineScript.Proofs.Lifecycle

/-!
# The first failure of a run

Every call that can fail says in its event whether it failed. A line stops the
script with its first failing call, whose failure the error carries on; a line
without one never fails. Main result: a run is finished exactly if reading and
every call before its closing flush went well, and else it gives the error of
the earliest failure, after which only the child that lives is ended.
-/

namespace LineScript

namespace Event

/-- The failure that an event reports. -/
def fault? : Event → Option Fault
  | .start _ _ failure | .send _ _ failure | .write _ failure | .flush failure => failure
  | .teardown _ answer => answer.failure
  | _ => none

/-- The error for a failing call that a line makes. -/
def errorAt (line : Line) (program : String) (fault : Fault) : Event → RunError
  | .start .. => .spawn line.number line.text program fault
  | .send _ text _ => .write line.number text fault
  | _ => .io fault

/-- The child that lives after an event, given the one that lived before. -/
def live (child : Option Nat) : Event → Option Nat
  | .start child _ none => some child
  | .teardown .. => none
  | _ => child

end Event

/-- The child that lives after events, given the one that lived before. -/
def liveAfter (child : Option Nat) (events : List Event) : Option Nat :=
  events.foldl Event.live child

/-- Whether no event reports a failure. -/
def Faultless (events : List Event) : Prop := ∀ event ∈ events, event.fault? = none

/-- Whether events end with their only failure. -/
def BreaksAt (events : List Event) (event : Event) (fault : Fault) : Prop :=
  ∃ before, events = before ++ [event] ∧ Faultless before ∧ event.fault? = some fault

/-- Whether the events of a line account for the way it ends: an error is that
of the last event, which is the only one to fail, and else none fails. -/
def Accounts (line : Line) (program : String) (events : List Event) : Except Halt Unit → Prop
  | .error (.failed error) =>
    ∃ event fault, BreaksAt events event fault ∧ error = event.errorAt line program fault
  | _ => Faultless events

/-- Events without a failure may follow each other. -/
theorem Faultless.append {first second : List Event} (hfirst : Faultless first)
    (hsecond : Faultless second) : Faultless (first ++ second) :=
  List.forall_mem_append.mpr ⟨hfirst, hsecond⟩

/-- A failure may come after events without one. -/
theorem BreaksAt.append {first second : List Event} {event : Event} {fault : Fault}
    (hfirst : Faultless first) (hsecond : BreaksAt second event fault) :
    BreaksAt (first ++ second) event fault := by
  obtain ⟨before, rfl, hbefore, hfault⟩ := hsecond
  exact ⟨first ++ before, (List.append_assoc _ _ _).symm, hfirst.append hbefore, hfault⟩

/-- Events without a failure do not change what accounts for an end. -/
theorem Accounts.append {line : Line} {program : String} {first second : List Event}
    {result : Except Halt Unit} (hfirst : Faultless first)
    (hsecond : Accounts line program second result) :
    Accounts line program (first ++ second) result := by
  match result with
  | .error (.failed error) =>
    obtain ⟨event, fault, hbreaks, herror⟩ := hsecond
    exact ⟨event, fault, hbreaks.append hfirst, herror⟩
  | .error .unfinished => exact hfirst.append hsecond
  | .ok () => exact hfirst.append hsecond

/-- An event without a failure does not change what accounts for an end. -/
theorem Accounts.cons {line : Line} {program : String} {event : Event} {events : List Event}
    {result : Except Halt Unit} (hevent : event.fault? = none)
    (h : Accounts line program events result) : Accounts line program (event :: events) result :=
  h.append (List.forall_mem_singleton.mpr hevent)

/-- One event accounts for the end that its failure makes. -/
theorem accounts_singleton (line : Line) (program : String) (event : Event) :
    Accounts line program [event]
      (Halt.after event.fault? fun fault => event.errorAt line program fault) := by
  cases h : event.fault? with
  | none => exact List.forall_mem_singleton.mpr h
  | some fault => exact ⟨event, fault, ⟨[], rfl, List.forall_mem_nil _, h⟩, rfl⟩

/-- Whether a sink never fails, whatever it is given from a state on. -/
def Sink.Works {σ : Type} (sink : Sink σ) (s : σ) : Prop :=
  ∃ good : σ → Prop, good s ∧ ∀ s, good s →
    (∀ text, (sink.write s text).2 = none ∧ good (sink.write s text).1) ∧
      (sink.flush s).2 = none ∧ good (sink.flush s).1

/-- A sink that never fails takes a text, and goes on so. -/
theorem Sink.Works.write {σ : Type} {sink : Sink σ} {s : σ} (h : sink.Works s) (text : String) :
    (sink.write s text).2 = none ∧ sink.Works (sink.write s text).1 := by
  obtain ⟨good, hgood, hkeep⟩ := h
  obtain ⟨hnone, hnext⟩ := (hkeep s hgood).1 text
  exact ⟨hnone, good, hnext, hkeep⟩

/-- A sink that never fails can be flushed, and goes on so. -/
theorem Sink.Works.flush {σ : Type} {sink : Sink σ} {s : σ} (h : sink.Works s) :
    (sink.flush s).2 = none ∧ sink.Works (sink.flush s).1 := by
  obtain ⟨good, hgood, hkeep⟩ := h
  obtain ⟨hnone, hnext⟩ := (hkeep s hgood).2
  exact ⟨hnone, good, hnext, hkeep⟩

/-- The limited sink never fails where it has no limits. -/
theorem LimitedSink.works {s : LimitedSink} (hroom : s.room = none) (hflush : s.flushLimit = none) :
    LimitedSink.sink.Works s := by
  refine ⟨fun s => s.room = none ∧ s.flushLimit = none, ⟨hroom, hflush⟩, ?_⟩
  rintro s ⟨hroom, hflush⟩
  constructor
  · intro text
    simp [LimitedSink.sink, LimitedSink.write, LimitedSink.takeBytes, hroom, hflush]
  · simp [LimitedSink.sink, LimitedSink.flush, hroom, hflush]

/-- Whether `contents` shows what a sink has taken: a text that was written is
appended, and a flush changes nothing. -/
structure Sink.Shows {σ : Type} (sink : Sink σ) (contents : σ → Bytes) : Prop where
  /-- A text is appended. -/
  write : ∀ s text, (sink.write s text).2 = none →
    contents (sink.write s text).1 = contents s ++ Utf8.ofString text
  /-- A flush writes nothing. -/
  flush : ∀ s, contents (sink.flush s).1 = contents s

/-- The limited sink shows the bytes that it has taken. -/
theorem LimitedSink.shows_written : LimitedSink.sink.Shows LimitedSink.written where
  write s text hnone := by
    change written (s.takeBytes (Utf8.ofString text)).1 = _
    change (s.takeBytes (Utf8.ofString text)).2 = none at hnone
    cases hroom : s.room with
    | none =>
      simp only [takeBytes, hroom]
      exact s.written_push _
    | some room =>
      by_cases hfits : (Utf8.ofString text).length ≤ room
      · simp only [takeBytes, hroom, if_pos hfits]
        simp [written]
      · simp [takeBytes, hroom, hfits] at hnone
  flush _ := rfl

/-- The child in custody after an event is the one that lives after it. -/
theorem Custody.Allows.child_eq {k k' : Custody} {event : Event} (h : Allows k event k') :
    k'.child = event.live k.child := by
  cases h with
  | started => rfl
  | refused => rfl
  | used hused => cases event <;> first | rfl | simp [Event.used?] at hused
  | ended => rfl
  | other hother => cases event <;> first | rfl | simp [Event.isHostCall] at hother

/-- The child in custody after events is the one that lives after them. -/
theorem Custody.Keeps.child_eq {k k' : Custody} {events : List Event} (h : Keeps k events k') :
    k'.child = liveAfter k.child events := by
  induction h with
  | nil => rfl
  | cons hevent _ ih => rw [ih, hevent.child_eq, liveAfter, liveAfter, List.foldl_cons]

namespace Runner

variable {β σ : Type} {r : Runner β σ}

/-- With a sink that never fails, only calls of the host report failures. -/
theorem Conversation.sink_faultless {p q : Parties β σ} {events : List Event}
    (h : r.Conversation p events q) (hworks : r.sink.Works p.sink) :
    ∀ event ∈ events, event.isHostCall = false → event.fault? = none := by
  induction events generalizing p with
  | nil => exact List.forall_mem_nil _
  | cons first rest ih =>
    obtain ⟨hanswer, hrest⟩ := h
    have hfirst : (first.isHostCall = false → first.fault? = none) ∧
        r.sink.Works (r.after p first).sink := by
      cases first with
      | write text failure =>
        obtain ⟨hnone, hnext⟩ := hworks.write text
        exact ⟨fun _ => hanswer.symm.trans hnone, hnext⟩
      | flush failure =>
        obtain ⟨hnone, hnext⟩ := hworks.flush
        exact ⟨fun _ => hanswer.symm.trans hnone, hnext⟩
      | sleep => exact ⟨fun _ => rfl, hworks⟩
      | warn => exact ⟨fun _ => rfl, hworks⟩
      | _ => exact ⟨nofun, hworks⟩
    intro event hmem hother
    rcases List.mem_cons.mp hmem with rfl | hmem
    · exact hfirst.1 hother
    · exact ih hrest hfirst.2 event hmem hother

/-- The end of the child accounts for its failure. -/
theorem Ended.accounts {child : Option Nat} {events : List Event} {failure : Option Fault}
    (line : Line) (program : String) (h : Ended child events failure) :
    Accounts line program events (Halt.after failure .io) := by
  cases h with
  | absent => exact List.forall_mem_nil _
  | @called child answer =>
    have hend := accounts_singleton line program (.teardown child answer)
    refine hend.append ?_
    intro event hmem
    obtain ⟨limit, _, rfl⟩ : ∃ limit, answer.killedAfter = some limit ∧
        Event.warn (.killed limit) = event := by simpa using hmem
    rfl

/-- A drain accounts for its end. -/
theorem Drained.accounts {child left : Nat} {books books' : Books} {events : List Event}
    {result : Except Halt Unit} (line : Line) (program : String)
    (h : r.Drained child left books events result books') :
    Accounts line program events result := by
  have hlast := accounts_singleton line program
  induction h with
  | exhausted => exact List.forall_mem_nil _
  | quiet => exact (hlast _).cons rfl
  | unwritten => exact (hlast _).cons rfl
  | exited => exact (((hlast _).cons rfl).cons rfl).cons rfl
  | more _ ih => exact ((ih.cons rfl).cons rfl).cons rfl

/-- A command accounts for its end. -/
theorem Executed.accounts {line : Line} {command : Command} {books books' : Books}
    {events : List Event} {result : Except Halt Unit}
    (h : r.Executed line command books events result books') :
    Accounts line r.host.program events result := by
  have hlast := accounts_singleton line r.host.program
  cases h with
  | nothing => exact List.forall_mem_nil _
  | skipMode => exact hlast _
  | unended hended => exact hended.accounts line r.host.program
  | unstarted hended => exact (hlast _).append (hended.accounts line r.host.program)
  | restarted hended => exact (hlast _).append (hended.accounts line r.host.program)
  | dropped => exact List.forall_mem_nil _
  | unwritten => exact hlast _
  | unflushed => exact (hlast _).cons rfl
  | refused => exact ((hlast _).cons rfl).cons rfl
  | sent _ hdrained =>
    exact (((hdrained.accounts line r.host.program).cons rfl).cons rfl).cons rfl
  | unannounced => exact hlast _
  | unshown => exact (hlast _).cons rfl
  | slept => exact ((hlast _).cons rfl).cons rfl
  | malformed => exact hlast _

/-- Lines that are carried out make no failing call. -/
theorem Performed.faultless {s s' : RunState β σ} {lines : List Line} {events : List Event}
    (h : r.Performed s lines events (.ok ()) s') : Faultless events := by
  generalize hresult : Except.ok () = result at h
  induction h with
  | nil => exact List.forall_mem_nil _
  | stopped => cases hresult
  | cons hline _ ih => exact Faultless.append hline.rule.accounts (ih hresult)

/-- The end of the child goes well exactly if no failure is given. -/
theorem Ended.faultless_iff {child : Option Nat} {events : List Event} {failure : Option Fault}
    (h : Ended child events failure) : Faultless events ↔ failure = none := by
  cases h with
  | absent => exact ⟨fun _ => rfl, fun _ => List.forall_mem_nil _⟩
  | @called child answer =>
    constructor
    · intro hfaultless
      exact hfaultless (.teardown child answer) (List.mem_append_right _ List.mem_cons_self)
    · intro hnone
      refine Faultless.append ?_ (List.forall_mem_singleton.mpr hnone)
      intro event hmem
      obtain ⟨limit, _, rfl⟩ : ∃ limit, answer.killedAfter = some limit ∧
          Event.warn (.killed limit) = event := by simpa using hmem
      rfl

/-- Without a child there are no events of its end. -/
theorem Ended.eq_nil {events : List Event} {failure : Option Fault}
    (h : Ended none events failure) : events = [] := by
  cases h with
  | absent => rfl

variable (r)

/-- Whether all lines of a list are carried out. -/
def CarriesOut (s : RunState β σ) (lines : List Line) : Prop :=
  ∃ s', (r.runLines lines).run.run s = (.ok (), s')

/-- Whether a list of lines is carried out and the line after them fails. -/
def FailsAt (s : RunState β σ) (before : List Line) (line : Line) (error : RunError) : Prop :=
  ∃ s₁ s₂, (r.runLines before).run.run s = (.ok (), s₁) ∧
    (r.runLine line).run.run s₁ = (.error (.failed error), s₂)

/-- Where a run fails first, given what was done until then and the clean-up
after it, with the error for that failure. -/
inductive FirstFailure (script : Script) (s : RunState β σ) (work cleanup : List Event)
    (failure : Option Fault) : RunError → Prop
  /-- A call that a line makes fails. If it was to end a child, nothing is cleaned up. -/
  | line {before line after event fault} (hlines : script.lines = before ++ line :: after)
      (hfails : r.FailsAt s before line (event.errorAt line r.host.program fault))
      (hbreaks : BreaksAt work event fault) (hended : event.ended?.isSome → cleanup = []) :
      FirstFailure script s work cleanup failure (event.errorAt line r.host.program fault)
  /-- Reading fails after all lines were carried out. -/
  | reading {fault} (hlines : r.CarriesOut s script.lines) (hwork : Faultless work)
      (hread : script.failure = some fault) : FirstFailure script s work cleanup failure (.io fault)
  /-- Everything went well but the end of the last child. -/
  | cleanup {fault} (hlines : r.CarriesOut s script.lines) (hwork : Faultless work)
      (hread : script.failure = none) (hcleanup : failure = some fault) :
      FirstFailure script s work cleanup failure (.io fault)

variable {r}

/-- A script that fails has made a failing call. -/
theorem Performed.not_faultless {s s' : RunState β σ} {lines : List Line} {work : List Event}
    {error : RunError} (h : r.Performed s lines work (.error (.failed error)) s') :
    ¬ Faultless work := by
  intro hfaultless
  obtain ⟨_, _, _, first, own, _, _, rfl, _, hline⟩ := h.stop_cases
  obtain ⟨event, fault, ⟨earlier, rfl, _, hfault⟩, _⟩ := hline.rule.accounts
  have hmem : event ∈ first ++ (earlier ++ [event]) :=
    List.mem_append_right _ (List.mem_append_right _ List.mem_cons_self)
  rw [hfaultless event hmem] at hfault
  cases hfault

/-- A script that fails does so with the first failing call of a line. -/
theorem Performed.firstFailure {script : Script} {s s' : RunState β σ} {work cleanup : List Event}
    {error : RunError} {failure : Option Fault}
    (h : r.Performed s script.lines work (.error (.failed error)) s')
    (he : Ended s'.child cleanup failure) :
    r.FirstFailure script s work cleanup failure error := by
  have hlive : s'.child = liveAfter s.child work := h.keeps.child_eq
  obtain ⟨before, line, after, first, own, s₁, hlines, rfl, hbefore, hline⟩ := h.stop_cases
  obtain ⟨event, fault, hown, rfl⟩ := hline.rule.accounts
  have hbreaks : BreaksAt (first ++ own) event fault := hown.append hbefore.faultless
  refine .line hlines ⟨s₁, s', hbefore.does.ends, hline.does.ends⟩ hbreaks ?_
  intro hended
  obtain ⟨earlier, heq, _, _⟩ := hbreaks
  -- The teardown is the last event, so no child lives after it.
  have hnone : s'.child = none := by
    rw [hlive, heq, liveAfter, List.foldl_append]
    cases event <;> simp [Event.ended?] at hended
    rfl
  rw [hnone] at he
  exact he.eq_nil

/-- The child that is ended after lines is the one that their events leave alive. -/
theorem Performed.ended_live {s s' : RunState β σ} {lines : List Line}
    {work cleanup : List Event} {result : Except Halt Unit} {failure : Option Fault}
    (h : r.Performed s lines work result s') (he : Ended s'.child cleanup failure) :
    Ended (liveAfter s.child work) cleanup failure := by
  have hlive : s'.child = liveAfter s.child work := h.keeps.child_eq
  rwa [hlive] at he

/-- If all calls of a run that is over went well, reading decides how it ends. -/
theorem Ran.outcome_of_faultless {script : Script} {s : RunState β σ} {books' : Books}
    {events : List Event} {outcome : Outcome} (h : r.Ran script s events outcome books')
    (hover : outcome ≠ .unfinished) (hfaultless : Faultless events) :
    outcome = match script.failure with
      | none => .finished books'.report
      | some fault => .failed (.io fault) := by
  cases h with
  | unfinished => exact absurd rfl hover
  | failed hlines =>
    exact absurd (List.forall_mem_append.mp hfaultless).1 hlines.not_faultless
  | unread _ hread => rw [hread]
  | unended _ _ hended =>
    have hcleanup := (List.forall_mem_append.mp (List.forall_mem_append.mp hfaultless).2).1
    cases hended.faultless_iff.mp hcleanup
  | finished _ hread =>
    rw [hread]
    rfl

/-- A farewell is no more than a warning. -/
theorem farewell_warns (failure : Option Fault) :
    ∀ event ∈ farewell failure, ∃ warning, event = .warn warning := by
  intro event hmem
  obtain ⟨fault, _, rfl⟩ : ∃ fault, failure = some fault ∧
      Event.warn (.cleanupFailed fault) = event := by simpa [farewell] using hmem
  exact ⟨_, rfl⟩

/-- The events of a run that is over are the work on its lines, the end of the child
that lives after it, the closing flush and at most a warning. What was done before
the closing flush decides how the run ends. -/
theorem Ran.decided {script : Script} {s : RunState β σ} {books' : Books} {events : List Event}
    {outcome : Outcome} (h : r.Ran script s events outcome books') (hover : outcome ≠ .unfinished) :
    ∃ work cleanup failure closing after,
      events = work ++ (cleanup ++ .flush closing :: after) ∧
      Ended (liveAfter s.child work) cleanup failure ∧
      (∀ event ∈ after, ∃ warning, event = .warn warning) ∧
      ((∃ report, outcome = .finished report) ↔
        script.failure = none ∧ Faultless (work ++ cleanup)) ∧
      ∀ error, outcome = .failed error → r.FirstFailure script s work cleanup failure error := by
  cases h with
  | unfinished => exact absurd rfl hover
  | @failed work error s₁ cleanup failure closing hlines hended =>
    refine ⟨work, cleanup, failure, closing, _, rfl, hlines.ended_live hended,
      farewell_warns failure, ?_, ?_⟩
    · constructor
      · rintro ⟨report, hreport⟩
        cases hreport
      · rintro ⟨_, hfaultless⟩
        exact absurd (List.forall_mem_append.mp hfaultless).1 hlines.not_faultless
    · rintro _ ⟨⟩
      exact hlines.firstFailure hended
  | @unread work fault s₁ cleanup failure closing hlines hread hended =>
    refine ⟨work, cleanup, failure, closing, _, rfl, hlines.ended_live hended,
      farewell_warns failure, ?_, ?_⟩
    · constructor
      · rintro ⟨report, hreport⟩
        cases hreport
      · rintro ⟨hnone, _⟩
        rw [hnone] at hread
        cases hread
    · rintro _ ⟨⟩
      exact .reading ⟨s₁, hlines.does.ends⟩ hlines.faultless hread
  | @unended work fault s₁ cleanup closing hlines hread hended =>
    refine ⟨work, cleanup, some fault, closing, [], rfl, hlines.ended_live hended,
      List.forall_mem_nil _, ?_, ?_⟩
    · constructor
      · rintro ⟨report, hreport⟩
        cases hreport
      · rintro ⟨_, hfaultless⟩
        cases hended.faultless_iff.mp (List.forall_mem_append.mp hfaultless).2
    · rintro _ ⟨⟩
      exact .cleanup ⟨s₁, hlines.does.ends⟩ hlines.faultless hread rfl
  | @finished work s₁ cleanup closing hlines hread hended =>
    refine ⟨work, cleanup, none, closing, [], rfl, hlines.ended_live hended,
      List.forall_mem_nil _, ?_, ?_⟩
    · constructor
      · intro _
        exact ⟨hread, hlines.faultless.append (hended.faultless_iff.mpr rfl)⟩
      · intro _
        exact ⟨_, rfl⟩
    · rintro _ ⟨⟩

/-- A run that is over is finished exactly if reading and all its calls before
the closing flush went well, and else gives the error of its first failure. After
the work on its lines, the child that lives is ended, and nothing but the closing
flush and a warning follows. -/
theorem run_firstFailure (r : Runner β σ) (script : Script) {s s' : RunState β σ}
    {outcome : Outcome} (h : r.run script s = (outcome, s')) (hover : outcome ≠ .unfinished) :
    ∃ work cleanup failure closing after,
      s'.events = s.events ++ (work ++ (cleanup ++ .flush closing :: after)) ∧
      Ended (liveAfter s.child work) cleanup failure ∧
      (∀ event ∈ after, ∃ warning, event = .warn warning) ∧
      ((∃ report, outcome = .finished report) ↔
        script.failure = none ∧ Faultless (work ++ cleanup)) ∧
      ∀ error, outcome = .failed error → r.FirstFailure script s work cleanup failure error := by
  obtain ⟨events, hevents, _, hran⟩ := ran_of_run h
  obtain ⟨work, cleanup, failure, closing, after, hsplit, hdecided⟩ := hran.decided hover
  rw [hsplit] at hevents
  exact ⟨work, cleanup, failure, closing, after, hevents, hdecided⟩

/-- A script that restarts its child after a text. -/
def textBetweenRestarts : Script :=
  ⟨"/", [⟨1, "RESTART"⟩, ⟨2, "hello"⟩, ⟨3, "RESTART"⟩], none⟩

/-- A child that takes no text and cannot be ended. -/
def closedAndStuck : List ChildPlan :=
  [{ sendFailure := some (0, Fault.brokenPipe), teardownFailure := some Fault.badDescriptor }]

/-- A text that the child does not take decides a run in which ending the child
fails as well. -/
theorem run_firstFailure_of_refused_text :
    ∃ s' work cleanup failure closing after,
      planned.run textBetweenRestarts (.planned closedAndStuck) =
          (.failed (.write 2 "hello" Fault.brokenPipe), s') ∧
      s'.events = work ++ (cleanup ++ .flush closing :: after) ∧
      Ended (liveAfter none work) cleanup failure ∧
      planned.FirstFailure textBetweenRestarts (.planned closedAndStuck)
        work cleanup failure (.write 2 "hello" Fault.brokenPipe) := by
  have hrun : (planned.run textBetweenRestarts (.planned closedAndStuck)).1 =
      .failed (.write 2 "hello" Fault.brokenPipe) := by
    decide +kernel
  obtain ⟨s', hs⟩ := run_eq_of_fst hrun
  obtain ⟨work, cleanup, failure, closing, after, hevents, hended, _, _, hfirst⟩ :=
    run_firstFailure planned _ hs nofun
  exact ⟨s', work, cleanup, failure, closing, after, hs, hevents, hended, hfirst _ rfl⟩

end Runner

end LineScript
