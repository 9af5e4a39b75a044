import LineScript.Child.Supervision
import LineScript.Proofs.ChildInput

/-!
# Ending a child for good

A supervisor is called in any order: to send a line, to poll, to look whether the process has ended,
and to end it, again and again. What a call does to the process is noted operation by operation,
with the answers, which may be anything. Ending a child has stages, and each of them can fail: the
pipes are closed, the end is waited for, the process is killed, and the end is waited for once more.
Main result: however such a stage goes, nothing is written or read after the first attempt to end
the child, every attempt waits anew until one has gone well, and from then on nothing at all is
done.
-/

namespace LineScript

/-- An operation on a process, with its answer. -/
inductive Operation where
  /-- Bytes are written to its input. -/
  | write (bytes : Bytes) (failure : Option Fault)
  /-- A line of its output is waited for. -/
  | receive (timeout : Duration) (outcome : PollOutcome)
  /-- It is asked whether it has ended. -/
  | hasExited (exited : Bool)
  /-- Its pipes are closed. -/
  | closePipes
  /-- Its end is waited for. -/
  | wait (failure : Option Fault)
  /-- Its end is waited for, for a limited time. -/
  | waitFor (time : Duration) (answer : Option (Option Fault))
  /-- It is killed. -/
  | kill (failure : Option Fault)
  deriving DecidableEq

/-- Whether an operation has waited for the end of the process until it came. -/
def Operation.findsEnd : Operation → Bool
  | .wait none | .waitFor _ (some none) => true
  | _ => false

namespace ProcessControl

variable {π α : Type}

/-- An operation that is noted after those before it. -/
def note (past : List Operation) (operation : α → Operation) (answer : π × α) :
    (π × List Operation) × α :=
  ((answer.1, past ++ [operation answer.2]), answer.2)

/-- The operations on a process, each of them noted. -/
def noting (control : ProcessControl π) : ProcessControl (π × List Operation) where
  write p bytes := note p.2 (.write bytes) (control.write p.1 bytes)
  receive p timeout := note p.2 (.receive timeout) (control.receive p.1 timeout)
  hasExited p := note p.2 .hasExited (control.hasExited p.1)
  closePipes p := (control.closePipes p.1, p.2 ++ [.closePipes])
  wait p := note p.2 .wait (control.wait p.1)
  waitFor p time := note p.2 (.waitFor time) (control.waitFor p.1 time)
  kill p := note p.2 .kill (control.kill p.1)

end ProcessControl

namespace Supervision

/-- A call of a supervisor. -/
inductive Call where
  /-- It is to send a line. -/
  | send (line : String)
  /-- It is to wait for a line of output. -/
  | poll (timeout : Duration)
  /-- It is to tell whether the process has ended. -/
  | hasExited
  /-- It is to end the child. -/
  | teardown
  deriving DecidableEq

/-- What a call returns. -/
inductive Reply where
  /-- How sending went. -/
  | sent (failure : Option Fault)
  /-- What polling brought. -/
  | polled (outcome : PollOutcome)
  /-- Whether the process has ended. -/
  | exited (exited : Bool)
  /-- How ending the child went. -/
  | ended (answer : Teardown)
  deriving DecidableEq

/-- A call with what it returned and the operations that it made. -/
structure Exchange where
  /-- The call. -/
  call : Call
  /-- What it returned. -/
  reply : Reply
  /-- The operations on the process, in order. -/
  operations : List Operation
  deriving DecidableEq

/-- Whether an exchange has ended the child without a failure. -/
def Exchange.endsWell (e : Exchange) : Bool :=
  match e.reply with
  | .ended answer => answer.failure.isNone
  | _ => false

variable {π : Type}

/-- Answers a call. -/
def respond (control : ProcessControl π) (s : Supervision) (process : π) :
    Call → Supervision × π × Reply
  | .send line =>
    let (process, failure) := s.send control process line
    (s, process, .sent failure)
  | .poll timeout =>
    let (process, outcome) := s.poll control process timeout
    (s, process, .polled outcome)
  | .hasExited =>
    let (process, exited) := control.hasExited process
    (s, process, .exited exited)
  | .teardown =>
    let (s, process, answer) := s.teardown control process
    (s, process, .ended answer)

/-- The exchanges for calls in turn. -/
def exchanges (control : ProcessControl π) (s : Supervision) (process : π) :
    List Call → List Exchange
  | [] => []
  | call :: rest =>
    let (s, (process, operations), reply) := s.respond control.noting (process, []) call
    ⟨call, reply, operations⟩ :: exchanges control s process rest

/-- The operations by which the end of a process is waited for, given the limit. -/
inductive Reaped : Option Duration → List Operation → Teardown → Prop
  /-- Without a limit it is waited for as long as it takes. -/
  | patient {failure} : Reaped none [.wait failure] ⟨failure, none⟩
  /-- It comes within the limit, or waiting fails. -/
  | inTime {time failure} : Reaped (some time) [.waitFor time (some failure)] ⟨failure, none⟩
  /-- The limit is reached, and the process cannot be killed. -/
  | unkilled {time fault} :
      Reaped (some time) [.waitFor time none, .kill (some fault)] ⟨some fault, some time⟩
  /-- The limit is reached, and it is waited for the end of the killed process. -/
  | killed {time failure} :
      Reaped (some time) [.waitFor time none, .kill none, .wait failure] ⟨failure, some time⟩

/-- The operations by which the pipes are closed, if they are open. -/
def closing (pipesOpen : Bool) : List Operation := if pipesOpen then [.closePipes] else []

/-- The exchanges that can occur, with what is remembered before and after. -/
inductive Step : Supervision → Exchange → Supervision → Prop
  /-- A line is written to open pipes. -/
  | sent {s line failure} (h : s.pipesOpen = true) :
      Step s ⟨.send line, .sent failure, [.write (inputLine line) failure]⟩ s
  /-- A line for closed pipes is refused. -/
  | refused {s line} (h : s.pipesOpen = false) :
      Step s ⟨.send line, .sent (some inputClosed), []⟩ s
  /-- Output is waited for at open pipes. -/
  | polled {s timeout outcome} (h : s.pipesOpen = true) :
      Step s ⟨.poll timeout, .polled outcome, [.receive timeout outcome]⟩ s
  /-- Closed pipes are at their end. -/
  | finished {s timeout} (h : s.pipesOpen = false) :
      Step s ⟨.poll timeout, .polled .endOfStream, []⟩ s
  /-- The process is asked whether it has ended. -/
  | asked {s exited} : Step s ⟨.hasExited, .exited exited, [.hasExited exited]⟩ s
  /-- The end is known. -/
  | known {s} (h : s.reaped = true) :
      Step s ⟨.teardown, .ended {}, closing s.pipesOpen⟩
        { s with pipesOpen := false, reaped := true }
  /-- The end is waited for. -/
  | ended {s operations answer} (h : s.reaped = false)
      (hreaped : Reaped s.limit operations answer) :
      Step s ⟨.teardown, .ended answer, closing s.pipesOpen ++ operations⟩
        { s with pipesOpen := false, reaped := answer.failure.isNone }

/-- Waiting for the end makes the operations that the limit asks for. Noting them changes nothing.
-/
theorem reap_noting (control : ProcessControl π) (limit : Option Duration) (process : π)
    (past : List Operation) :
    ∃ operations, reap control.noting limit (process, past) =
        (((reap control limit process).1, past ++ operations), (reap control limit process).2) ∧
      Reaped limit operations (reap control limit process).2 := by
  cases limit with
  | none => exact ⟨_, rfl, .patient⟩
  | some time =>
    rcases hwait : control.waitFor process time with ⟨waited, _ | failure⟩
    · rcases hkill : control.kill waited with ⟨killed, _ | fault⟩
      · refine ⟨[.waitFor time none, .kill none, .wait (control.wait killed).2], ?_, ?_⟩
        · simp [reap, ProcessControl.noting, ProcessControl.note, hwait, hkill]
        · simp only [reap, hwait, hkill]
          exact .killed
      · refine ⟨[.waitFor time none, .kill (some fault)], ?_, ?_⟩
        · simp [reap, ProcessControl.noting, ProcessControl.note, hwait, hkill]
        · simp only [reap, hwait, hkill]
          exact .unkilled
    · refine ⟨[.waitFor time (some failure)], ?_, ?_⟩
      · simp [reap, ProcessControl.noting, ProcessControl.note, hwait]
      · simp only [reap, hwait]
        exact .inTime

/-- Closing the pipes is one operation, if they are open. -/
theorem closePipes_noting (control : ProcessControl π) (s : Supervision) (process : π)
    (past : List Operation) :
    s.closePipes control.noting (process, past) =
        ({ s with pipesOpen := false },
          (s.closePipes control process).2, past ++ closing s.pipesOpen) ∧
      (s.closePipes control process).1 = { s with pipesOpen := false } := by
  obtain ⟨limit, _ | _, reaped⟩ := s
  · refine ⟨?_, rfl⟩
    simp [closePipes, closing]
  · exact ⟨rfl, rfl⟩

/-- What a supervisor does at a call, whatever the operations answer. Noting them changes nothing.
-/
theorem respond_noting (control : ProcessControl π) (s : Supervision) (process : π)
    (past : List Operation) (call : Call) :
    ∃ operations, s.respond control.noting (process, past) call =
        ((s.respond control process call).1,
          ((s.respond control process call).2.1, past ++ operations),
          (s.respond control process call).2.2) ∧
      Step s ⟨call, (s.respond control process call).2.2, operations⟩
        (s.respond control process call).1 := by
  cases call with
  | send line =>
    cases hopen : s.pipesOpen with
    | true =>
      refine ⟨[.write (inputLine line) (control.write process (inputLine line)).2], ?_, ?_⟩
      · simp [respond, send, hopen, ProcessControl.noting, ProcessControl.note, inputLine]
      · simp only [respond, send, hopen, if_true]
        exact .sent hopen
    | false =>
      refine ⟨[], ?_, ?_⟩
      · simp [respond, send, hopen]
      · simp only [respond, send, hopen, Bool.false_eq_true, if_false]
        exact .refused hopen
  | poll timeout =>
    cases hopen : s.pipesOpen with
    | true =>
      refine ⟨[.receive timeout (control.receive process timeout).2], ?_, ?_⟩
      · simp [respond, poll, hopen, ProcessControl.noting, ProcessControl.note]
      · simp only [respond, poll, hopen, if_true]
        exact .polled hopen
    | false =>
      refine ⟨[], ?_, ?_⟩
      · simp [respond, poll, hopen]
      · simp only [respond, poll, hopen, Bool.false_eq_true, if_false]
        exact .finished hopen
  | hasExited => exact ⟨_, rfl, .asked⟩
  | teardown =>
    obtain ⟨hclosed, hstate⟩ := closePipes_noting control s process past
    cases hreaped : s.reaped with
    | true =>
      refine ⟨closing s.pipesOpen, ?_, ?_⟩
      · simp [respond, teardown, hclosed, hstate, hreaped]
      · simp only [respond, teardown, hstate, hreaped, if_true]
        exact .known hreaped
    | false =>
      obtain ⟨operations, hreap, hrule⟩ := reap_noting control s.limit
        (s.closePipes control process).2 (past ++ closing s.pipesOpen)
      refine ⟨closing s.pipesOpen ++ operations, ?_, ?_⟩
      · simp [respond, teardown, hclosed, hstate, hreaped, hreap]
      · simp only [respond, teardown, hstate, hreaped, Bool.false_eq_true, if_false]
        exact .ended hreaped hrule

/-- The exchanges for calls in turn. -/
inductive Course : Supervision → List Exchange → Supervision → Prop
  /-- No call is left. -/
  | nil {s} : Course s [] s
  /-- A call is answered, and then the others. -/
  | cons {s e s' rest s''} (h : Step s e s') (hrest : Course s' rest s'') :
      Course s (e :: rest) s''

/-- Every call is answered, and the exchanges are such as can occur. -/
theorem exchanges_course (control : ProcessControl π) (s : Supervision) (process : π)
    (calls : List Call) :
    (exchanges control s process calls).map Exchange.call = calls ∧
      ∃ s', Course s (exchanges control s process calls) s' := by
  induction calls generalizing s process with
  | nil => exact ⟨rfl, s, .nil⟩
  | cons call rest ih =>
    obtain ⟨operations, hnoting, hstep⟩ := s.respond_noting control process [] call
    obtain ⟨hcalls, s', hcourse⟩ :=
      ih (s.respond control process call).1 (s.respond control process call).2.1
    rw [exchanges, hnoting]
    exact ⟨congrArg (call :: ·) hcalls, s', .cons hstep hcourse⟩

/-- Whether a supervisor remembers what happened so far. -/
structure Remembers (s : Supervision) (limit : Option Duration) (past : List Exchange) : Prop where
  /-- The limit is always the same. -/
  limit_eq : s.limit = limit
  /-- The pipes are open until the child is to be ended. -/
  pipesOpen_iff : s.pipesOpen = true ↔ ∀ e ∈ past, e.call ≠ .teardown
  /-- A child whose end is known has closed pipes. -/
  closed : s.reaped = true → s.pipesOpen = false
  /-- The end is known once the child was ended without a failure. -/
  reaped_iff : s.reaped = true ↔ ∃ e ∈ past, e.endsWell = true
  /-- It is known only from an operation that has found it. -/
  found : s.reaped = true → ∃ e ∈ past, ∃ operation ∈ e.operations, operation.findsEnd = true

/-- A new supervisor has nothing to remember. -/
theorem remembers_fresh (limit : Option Duration) : Remembers { limit } limit [] where
  limit_eq := rfl
  pipesOpen_iff := ⟨fun _ => List.forall_mem_nil _, fun _ => rfl⟩
  closed := nofun
  reaped_iff := ⟨nofun, nofun⟩
  found := nofun

/-- Ending a child without a failure has found the end of its process. -/
theorem Reaped.findsEnd {limit : Option Duration} {operations : List Operation} {answer : Teardown}
    (h : Reaped limit operations answer) (hnone : answer.failure = none) :
    ∃ operation ∈ operations, operation.findsEnd = true := by
  cases h with
  | patient =>
    cases hnone
    exact ⟨_, List.mem_singleton_self _, rfl⟩
  | inTime =>
    cases hnone
    exact ⟨_, List.mem_singleton_self _, rfl⟩
  | unkilled => cases hnone
  | killed =>
    cases hnone
    exact ⟨.wait none, by simp, rfl⟩

/-- A kill comes after the limit was reached. -/
theorem Reaped.limit_before_kill {limit : Option Duration} {operations : List Operation}
    {answer : Teardown} (h : Reaped limit operations answer) {failure : Option Fault}
    (hkill : .kill failure ∈ operations) :
    ∃ time rest, limit = some time ∧ operations = .waitFor time none :: .kill failure :: rest := by
  cases h with
  | patient => simp at hkill
  | inTime => simp at hkill
  | unkilled =>
    obtain rfl : failure = some _ := by simpa using hkill
    exact ⟨_, [], rfl, rfl⟩
  | killed =>
    obtain rfl : failure = none := by simpa using hkill
    exact ⟨_, _, rfl, rfl⟩

variable {s s' : Supervision} {limit : Option Duration} {past : List Exchange} {e : Exchange}

/-- Nothing new is to be remembered of a call that is not to end the child. -/
theorem Remembers.other (h : Remembers s limit past) (hcall : e.call ≠ .teardown)
    (hreply : e.endsWell = false) : Remembers s limit (past ++ [e]) where
  limit_eq := h.limit_eq
  pipesOpen_iff := by
    rw [h.pipesOpen_iff, List.forall_mem_append, List.forall_mem_singleton, and_iff_left hcall]
  closed := h.closed
  reaped_iff := by
    rw [h.reaped_iff]
    constructor
    · rintro ⟨t, hmem, hwell⟩
      exact ⟨t, List.mem_append_left _ hmem, hwell⟩
    · rintro ⟨t, hmem, hwell⟩
      rcases List.mem_append.mp hmem with hmem | hmem
      · exact ⟨t, hmem, hwell⟩
      · obtain rfl := List.mem_singleton.mp hmem
        exact absurd hwell (Bool.eq_false_iff.mp hreply)
  found hreaped := by
    obtain ⟨t, hmem, hfound⟩ := h.found hreaped
    exact ⟨t, List.mem_append_left _ hmem, hfound⟩

/-- What is remembered after a call is right if it was right before. -/
theorem Remembers.step (h : Remembers s limit past) (hstep : Step s e s') :
    Remembers s' limit (past ++ [e]) := by
  cases hstep with
  | sent => exact h.other nofun rfl
  | refused => exact h.other nofun rfl
  | polled => exact h.other nofun rfl
  | finished => exact h.other nofun rfl
  | asked => exact h.other nofun rfl
  | known hreaped =>
    obtain ⟨t, hmem, hfound⟩ := h.found hreaped
    exact
      { limit_eq := h.limit_eq
        pipesOpen_iff := by simp
        closed := fun _ => rfl
        reaped_iff := ⟨fun _ => ⟨_, List.mem_concat_self, rfl⟩, fun _ => rfl⟩
        found := fun _ => ⟨t, List.mem_append_left _ hmem, hfound⟩ }
  | @ended operations answer hreaped hrule =>
    have hbefore : ∀ t ∈ past, t.endsWell = false := fun t hmem =>
      Bool.eq_false_iff.mpr fun hwell =>
        Bool.eq_false_iff.mp hreaped (h.reaped_iff.mpr ⟨t, hmem, hwell⟩)
    refine ⟨h.limit_eq, by simp, fun _ => rfl,
      ⟨fun hwell => ⟨_, List.mem_concat_self, hwell⟩, ?_⟩, fun hwell => ?_⟩
    · rintro ⟨t, hmem, hwell⟩
      rcases List.mem_append.mp hmem with hmem | hmem
      · exact absurd hwell (Bool.eq_false_iff.mp (hbefore t hmem))
      · obtain rfl := List.mem_singleton.mp hmem
        exact hwell
    · obtain ⟨operation, hmem, hfound⟩ := hrule.findsEnd (Option.isNone_iff_eq_none.mp hwell)
      exact ⟨_, List.mem_concat_self, operation, List.mem_append_right _ hmem, hfound⟩

/-- At every point of a course it is remembered what happened before. -/
theorem Course.split {course before after : List Exchange} (h : Course s course s')
    (hpast : Remembers s limit past) (hsplit : course = before ++ e :: after) :
    ∃ t t', Remembers t limit (past ++ before) ∧ Step t e t' := by
  induction h generalizing past before with
  | nil => simp at hsplit
  | @cons s first t rest _ hstep _ ih =>
    rcases List.cons_eq_append_iff.mp hsplit with ⟨rfl, heq⟩ | ⟨others, rfl, hrest⟩
    · cases heq
      exact ⟨s, t, (List.append_nil past).symm ▸ hpast, hstep⟩
    · obtain ⟨u, u', hu, hlast⟩ := ih (hpast.step hstep) hrest
      rw [List.append_assoc] at hu
      exact ⟨u, u', hu, hlast⟩

/-- At open pipes a line is written and a poll waits for output. -/
theorem Step.of_open (h : Step s e s') (hopen : s.pipesOpen = true) :
    (∀ line, e.call = .send line → ∃ failure, e.reply = .sent failure ∧
      e.operations = [.write (inputLine line) failure]) ∧
    ∀ timeout, e.call = .poll timeout → ∃ outcome, e.reply = .polled outcome ∧
      e.operations = [.receive timeout outcome] := by
  cases h with
  | sent =>
    refine ⟨?_, nofun⟩
    rintro _ ⟨⟩
    exact ⟨_, rfl, rfl⟩
  | polled =>
    refine ⟨nofun, ?_⟩
    rintro _ ⟨⟩
    exact ⟨_, rfl, rfl⟩
  | refused hclosed => cases hopen.symm.trans hclosed
  | finished hclosed => cases hopen.symm.trans hclosed
  | _ => exact ⟨nofun, nofun⟩

/-- At closed pipes no line is written and every poll finds the end. -/
theorem Step.of_closed (h : Step s e s') (hclosed : s.pipesOpen = false) :
    (∀ line, e.call = .send line → e.reply = .sent (some inputClosed) ∧ e.operations = []) ∧
    ∀ timeout, e.call = .poll timeout → e.reply = .polled .endOfStream ∧ e.operations = [] := by
  cases h with
  | sent hopen => cases hopen.symm.trans hclosed
  | polled hopen => cases hopen.symm.trans hclosed
  | refused => exact ⟨fun _ _ => ⟨rfl, rfl⟩, nofun⟩
  | finished => exact ⟨nofun, fun _ _ => ⟨rfl, rfl⟩⟩
  | _ => exact ⟨nofun, nofun⟩

/-- Ending a child whose end is known at most closes the pipes. -/
theorem Step.of_reaped (h : Step s e s') (hcall : e.call = .teardown) (hreaped : s.reaped = true) :
    e.reply = .ended {} ∧ e.operations = closing s.pipesOpen := by
  cases h with
  | known => exact ⟨rfl, rfl⟩
  | ended hunknown => cases hreaped.symm.trans hunknown
  | _ => cases hcall

/-- Ending a child whose end is not known waits for it. -/
theorem Step.of_unreaped (h : Step s e s') (hcall : e.call = .teardown)
    (hreaped : s.reaped = false) :
    ∃ operations answer, e.reply = .ended answer ∧
      e.operations = closing s.pipesOpen ++ operations ∧ Reaped s.limit operations answer := by
  cases h with
  | known hknown => cases hknown.symm.trans hreaped
  | @ended operations answer _ hrule => exact ⟨operations, answer, rfl, rfl, hrule⟩
  | _ => cases hcall

/-- Only ending a child kills its process, right after the limit was reached. -/
theorem Step.limit_before_kill (h : Step s e s') {failure : Option Fault}
    (hkill : .kill failure ∈ e.operations) :
    e.call = .teardown ∧ ∃ time first rest, s.limit = some time ∧
      e.operations = first ++ .waitFor time none :: .kill failure :: rest := by
  have hclosing (pipesOpen : Bool) : Operation.kill failure ∉ closing pipesOpen := by
    cases pipesOpen <;> simp [closing]
  cases h with
  | known => exact absurd hkill (hclosing _)
  | @ended operations answer _ hrule =>
    have hreaping := (List.mem_append.mp hkill).resolve_left (hclosing _)
    obtain ⟨time, rest, hlimit, rfl⟩ := hrule.limit_before_kill hreaping
    exact ⟨rfl, time, closing s.pipesOpen, rest, hlimit, rfl⟩
  | _ => simp at hkill

/-- Whether an exchange is, after those before it, one of a supervisor that ends its child for
good. -/
structure Fits (limit : Option Duration) (past : List Exchange) (e : Exchange) : Prop where
  /-- Until the child is to be ended, every line is written and every poll waits for output. -/
  opened : (∀ t ∈ past, t.call ≠ .teardown) →
    (∀ line, e.call = .send line → ∃ failure, e.reply = .sent failure ∧
      e.operations = [.write (inputLine line) failure]) ∧
    ∀ timeout, e.call = .poll timeout → ∃ outcome, e.reply = .polled outcome ∧
      e.operations = [.receive timeout outcome]
  /-- From then on no line is written and every poll finds the end, however ending the child went.
  -/
  closed : (∃ t ∈ past, t.call = .teardown) →
    (∀ line, e.call = .send line → e.reply = .sent (some inputClosed) ∧ e.operations = []) ∧
    ∀ timeout, e.call = .poll timeout → e.reply = .polled .endOfStream ∧ e.operations = []
  /-- Once the child was ended without a failure, ending it again does nothing. -/
  settled : (∃ t ∈ past, t.endsWell = true) → e.call = .teardown →
    e.reply = .ended {} ∧ e.operations = []
  /-- Until then ending it waits for the end of the process, and before that the pipes are closed if
  this is the first time. -/
  tried : (∀ t ∈ past, t.endsWell = false) → e.call = .teardown →
    ∃ first operations answer, (first = true ↔ ∀ t ∈ past, t.call ≠ .teardown) ∧
      e.reply = .ended answer ∧ e.operations = closing first ++ operations ∧
      Reaped limit operations answer
  /-- A process is killed only to end its child, and only if there is a limit and it was reached
  right before. -/
  killed : ∀ failure, .kill failure ∈ e.operations → e.call = .teardown ∧
    ∃ time first rest, limit = some time ∧
      e.operations = first ++ .waitFor time none :: .kill failure :: rest
  /-- A child is ended without a failure only if the end of its process was waited for. -/
  found : e.endsWell = true →
    ∃ t ∈ past ++ [e], ∃ operation ∈ t.operations, operation.findsEnd = true

/-- An exchange of a supervisor that remembers those before it fits them. -/
theorem Remembers.fits (h : Remembers s limit past) (hstep : Step s e s') : Fits limit past e where
  opened hnone := hstep.of_open (h.pipesOpen_iff.mpr hnone)
  closed := by
    rintro ⟨t, hmem, hcall⟩
    exact hstep.of_closed (Bool.eq_false_iff.mpr fun hopen => h.pipesOpen_iff.mp hopen t hmem hcall)
  settled hwell hcall := by
    have hreaped := h.reaped_iff.mpr hwell
    obtain ⟨hreply, hoperations⟩ := hstep.of_reaped hcall hreaped
    rw [h.closed hreaped] at hoperations
    exact ⟨hreply, hoperations⟩
  tried hfailed hcall := by
    have hunknown : s.reaped = false := Bool.eq_false_iff.mpr fun hreaped => by
      obtain ⟨t, hmem, hwell⟩ := h.reaped_iff.mp hreaped
      exact Bool.eq_false_iff.mp (hfailed t hmem) hwell
    obtain ⟨operations, answer, hreply, hoperations, hrule⟩ := hstep.of_unreaped hcall hunknown
    rw [h.limit_eq] at hrule
    exact ⟨s.pipesOpen, operations, answer, h.pipesOpen_iff, hreply, hoperations, hrule⟩
  killed failure hkill := by
    rw [← h.limit_eq]
    exact hstep.limit_before_kill hkill
  found hwell := by
    have hafter := h.step hstep
    exact hafter.found (hafter.reaped_iff.mpr ⟨e, List.mem_concat_self, hwell⟩)

/-- Whatever a supervisor is called for, and whatever the operations on the process answer, it
answers every call and ends its child for good. -/
theorem exchanges_fit (control : ProcessControl π) (limit : Option Duration) (process : π)
    (calls : List Call) :
    (exchanges control { limit } process calls).map Exchange.call = calls ∧
      ∀ before e after, exchanges control { limit } process calls = before ++ e :: after →
        Fits limit before e := by
  obtain ⟨hcalls, s', hcourse⟩ := exchanges_course control { limit } process calls
  refine ⟨hcalls, fun before e after hsplit => ?_⟩
  obtain ⟨t, t', hpast, hstep⟩ := hcourse.split (remembers_fresh limit) hsplit
  exact hpast.fits hstep

/-- The first kill fails. The second attempt ends the child, and the third one does nothing. -/
example :
    let control : ProcessControl Nat :=
      { write := fun p _ => (p, none)
        receive := fun p _ => (p, .timeout)
        hasExited := fun p => (p, false)
        closePipes := id
        wait := fun p => (p, none)
        waitFor := fun p _ => (p, none)
        kill := fun p => (p + 1, if p = 0 then some .permissionDenied else none) }
    (exchanges control { limit := some ⟨1⟩ } 0
        [.teardown, .send "late", .teardown, .teardown]).map Exchange.operations =
      [[.closePipes, .waitFor ⟨1⟩ none, .kill (some .permissionDenied)], [],
        [.waitFor ⟨1⟩ none, .kill none, .wait none], []] := by
  decide +kernel

end Supervision

end LineScript
