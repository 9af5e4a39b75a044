import LineScript.Proofs.Patience
import LineScript.Proofs.Queues

/-!
# Drains of children with queues

The calls of a run move outcomes into the queues of its children and out of them. What was queued
so far is always what was drawn so far followed by what is left, so nothing is passed over and
nothing is drawn twice, and the next drain begins where the last one stopped. As every line of
output is drawn, a drain polls at most once more than outcomes are queued. Main result: every run
drains with discipline, and over a host with queues it loses nothing and comes to an end.
-/

namespace LineScript

/-- How much a child has to say once it has taken the text of a line. -/
def Host.Queues.awaited {β σ : Type} {host : Host β} (queues : host.Queues) (line : Line)
    (s : RunState β σ) : Nat :=
  match (s.core.step line.text).1, s.child with
  | .send text, some child => (queues.queue (host.send s.host child text).1 child).length
  | _, _ => 0

namespace Runner

variable {β σ : Type} (r : Runner β σ) (queues : r.host.Queues) (child : Nat)

/-- What a call adds to the queue of a child. -/
def queuedBy (p : Parties β σ) : Event → List PollOutcome
  | .send recipient text none => if recipient = child then queues.added p.host child text else []
  | _ => []

/-- What a call takes of the queue of a child. -/
def drawnBy (p : Parties β σ) : Event → List PollOutcome
  | .poll polled _ _ => if polled = child then (queues.drawn p.host child).toList else []
  | _ => []

/-- What calls in turn add to the queue of a child. -/
def queuedIn (p : Parties β σ) : List Event → List PollOutcome
  | [] => []
  | event :: rest => r.queuedBy queues child p event ++ queuedIn (r.after p event) rest

/-- What calls in turn take of the queue of a child. -/
def drawnIn (p : Parties β σ) : List Event → List PollOutcome
  | [] => []
  | event :: rest => r.drawnBy queues child p event ++ drawnIn (r.after p event) rest

variable {r} {p q : Parties β σ}

/-- What a call adds goes behind what is queued, and what it takes comes from the front. -/
theorem queue_after {event : Event} (h : r.Answers p event) :
    queues.queue p.host child ++ r.queuedBy queues child p event =
      r.drawnBy queues child p event ++ queues.queue (r.after p event).host child := by
  cases event with
  | start number env failure =>
    exact (List.append_nil _).trans (queues.start p.host number env child).symm
  | send recipient text failure =>
    have hanswer : (r.host.send p.host recipient text).2 = failure := h
    by_cases hown : recipient = child
    · subst hown
      cases failure with
      | none =>
        rw [queuedBy, if_pos rfl]
        exact (queues.taken p.host recipient text hanswer).symm
      | some fault =>
        exact (List.append_nil _).trans (queues.refused p.host recipient text fault hanswer).symm
    · have hother := queues.send_other p.host recipient text child (Ne.symm hown)
      cases failure with
      | none =>
        rw [queuedBy, if_neg hown]
        exact (List.append_nil _).trans hother.symm
      | some fault => exact (List.append_nil _).trans hother.symm
  | poll polled timeout outcome =>
    rw [drawnBy]
    by_cases hown : polled = child
    · subst hown
      rw [if_pos rfl]
      exact (List.append_nil _).trans (queues.poll p.host polled timeout)
    · rw [if_neg hown]
      exact (List.append_nil _).trans
        (queues.poll_other p.host polled timeout child (Ne.symm hown)).symm
  | hasExited asked exited =>
    exact (List.append_nil _).trans (queues.hasExited p.host asked child).symm
  | teardown ended answer =>
    exact (List.append_nil _).trans (queues.teardown p.host ended child).symm
  | sleep duration => exact (List.append_nil _).trans (queues.pass p.host duration child).symm
  | _ => exact List.append_nil _

/-- What was queued in a conversation is what was drawn in it, followed by what is left. -/
theorem Conversation.conserved {events : List Event} (h : r.Conversation p events q) :
    queues.queue p.host child ++ r.queuedIn queues child p events =
      r.drawnIn queues child p events ++ queues.queue q.host child := by
  induction events generalizing p with
  | nil =>
    cases h
    exact List.append_nil _
  | cons event rest ih =>
    rw [queuedIn, drawnIn, ← List.append_assoc, queue_after queues child h.1, List.append_assoc,
      ih h.2, List.append_assoc]

/-- What is drawn is brought by the polls, in order, and the polls bring no line beyond it. -/
theorem Conversation.brings {events : List Event} (h : r.Conversation p events q) :
    (r.drawnIn queues child p events).Sublist (polledIn child events) ∧
      (polledIn child events).filterMap PollOutcome.line? =
        (r.drawnIn queues child p events).filterMap PollOutcome.line? := by
  induction events generalizing p with
  | nil => exact ⟨.slnil, rfl⟩
  | cons event rest ih =>
    obtain ⟨hsub, hlines⟩ := ih h.2
    cases event with
    | poll polled timeout outcome =>
      by_cases hown : polled = child
      · subst hown
        have hanswer : (r.host.poll p.host polled timeout).2 = outcome := h.1
        have hpolled : polledIn polled (.poll polled timeout outcome :: rest) =
            outcome :: polledIn polled rest := by simp [polledIn, Event.polled?]
        have hdrawn : r.drawnIn queues polled p (.poll polled timeout outcome :: rest) =
            (queues.drawn p.host polled).toList ++
              r.drawnIn queues polled (r.after p (.poll polled timeout outcome)) rest := by
          rw [drawnIn, drawnBy, if_pos rfl]
        rw [hpolled, hdrawn]
        rcases queues.brings p.host polled timeout with htaken | ⟨hnone, hquiet⟩
        · rw [hanswer] at htaken
          rw [Option.mem_def.mp htaken, Option.toList_some, List.singleton_append]
          refine ⟨hsub.cons_cons outcome, ?_⟩
          rw [List.filterMap_cons, List.filterMap_cons, hlines]
        · rw [hanswer] at hquiet
          rw [hnone, Option.toList_none, List.nil_append, List.filterMap_cons_none hquiet]
          exact ⟨hsub.cons outcome, hlines⟩
      · have hpolled : polledIn child (.poll polled timeout outcome :: rest) =
            polledIn child rest := List.filterMap_cons_none (if_neg hown)
        rw [hpolled, drawnIn, drawnBy, if_neg hown]
        exact ⟨hsub, hlines⟩
    | _ => exact ⟨hsub, hlines⟩

/-- A line that a poll brings was the first in the queue. -/
theorem queue_of_line {timeout : Duration} {output : String}
    (h : r.Answers p (.poll child timeout (.line output))) :
    queues.queue p.host child =
      .line output ::
        queues.queue (r.after p (.poll child timeout (.line output))).host child := by
  have hanswer : (r.host.poll p.host child timeout).2 = .line output := h
  have hqueue := queues.poll p.host child timeout
  rcases queues.brings p.host child timeout with htaken | ⟨-, hquiet⟩
  · rw [hanswer] at htaken
    rw [Option.mem_def.mp htaken] at hqueue
    exact hqueue
  · rw [hanswer] at hquiet
    cases hquiet

/-- A drain polls at most once more than outcomes are queued, and no more than that if it is cut
off. -/
theorem Drain.length_polledIn_le {timeout : Duration} {complete : Bool} {events : List Event}
    (hdrain : Drain timeout child complete events) (h : r.Conversation p events q) :
    (polledIn child events).length ≤ (queues.queue p.host child).length + complete.toNat := by
  induction hdrain generalizing p with
  | cut => exact Nat.zero_le _
  | quiet => simp [polledIn, List.filterMap_cons, Event.polled?]
  | unwritten => simp [polledIn, List.filterMap_cons, Event.polled?]
  | exited => simp [polledIn, List.filterMap_cons, Event.polled?]
  | @more complete output events _ ih =>
    obtain ⟨hpoll, -, -, hrest⟩ := h
    have hqueue := queue_of_line queues child hpoll
    -- Neither writing the line nor the question for the end touches the queue.
    have hkept : queues.queue (r.afterAll p [.poll child timeout (.line output),
        .write (echoLine output) none, .hasExited child false]).host child =
        queues.queue (r.after p (.poll child timeout (.line output))).host child :=
      queues.hasExited (r.after p (.poll child timeout (.line output))).host child child
    have hpolled : polledIn child (.poll child timeout (.line output) ::
        .write (echoLine output) none :: .hasExited child false :: events) =
        .line output :: polledIn child events := by
      simp [polledIn, List.filterMap_cons, Event.polled?]
    have hle : (polledIn child events).length ≤
        (queues.queue (r.after p (.poll child timeout (.line output))).host child).length +
          complete.toNat := hkept ▸ ih hrest
    rw [hpolled, hqueue, List.length_cons, List.length_cons]
    omega

/-- Whether the queue of a child loses nothing in calls in turn. -/
structure LosesNothing (p : Parties β σ) (events : List Event) : Prop where
  /-- At every moment what was queued is what was drawn, followed by what is left. -/
  conserved : ∀ before, before <+: events →
    queues.queue p.host child ++ r.queuedIn queues child p before =
      r.drawnIn queues child p before ++ queues.queue (r.afterAll p before).host child
  /-- All in all, what was drawn is the first part of what was queued. -/
  inOrder : r.drawnIn queues child p events <+:
    queues.queue p.host child ++ r.queuedIn queues child p events
  /-- What was drawn was brought by polls, in order. -/
  brought : (r.drawnIn queues child p events).Sublist (polledIn child events)
  /-- Every line of output was drawn. -/
  lines : (polledIn child events).filterMap PollOutcome.line? =
    (r.drawnIn queues child p events).filterMap PollOutcome.line?
  /-- A drain polls at most once more than outcomes are queued when it begins. -/
  few : ∀ before text drain complete after,
    events = before ++ .send child text none :: (drain ++ after) →
    Drain r.pollTimeout child complete drain →
    (polledIn child drain).length ≤
      (queues.queue (r.afterAll p (before ++ [.send child text none])).host child).length + 1

/-- A conversation loses nothing. -/
theorem Conversation.losesNothing {events : List Event} (h : r.Conversation p events q) :
    LosesNothing queues child p events := by
  obtain ⟨hbrought, hlines⟩ := h.brings queues child
  refine ⟨?_, ?_, hbrought, hlines, ?_⟩
  · rintro before ⟨after, rfl⟩
    exact h.split.1.conserved queues child
  · exact ⟨_, (h.conserved queues child).symm⟩
  · rintro before text drain complete after rfl hdrain
    rw [List.append_cons] at h
    have hbound := Drain.length_polledIn_le queues child hdrain h.split.2.split.1
    have hone : complete.toNat ≤ 1 := Bool.toNat_le complete
    omega

/-- All polls of a drain are polls of its child. -/
theorem Drain.countP_isPoll {timeout : Duration} {complete : Bool} {events : List Event}
    (h : Drain timeout child complete events) :
    events.countP Event.isPoll = (polledIn child events).length := by
  induction h with
  | more _ ih =>
    simpa [polledIn, List.filterMap_cons, List.countP_cons, Event.polled?, Event.isPoll] using ih
  | _ => simp [polledIn, List.filterMap_cons, List.countP_cons, Event.polled?, Event.isPoll]

variable {child}

/-- A command that comes to no end drains a child that has taken a text. -/
theorem Executed.drain_of_unfinished {line : Line} {command : Command} {books books' : Books}
    {events : List Event} (h : r.Executed line command books events (.error .unfinished) books') :
    ∃ text child drain complete, command = .send text ∧ books.child = some child ∧
      events = .write (sendLine text) none :: .flush none :: .send child text none :: drain ∧
      Drain r.pollTimeout child complete drain := by
  generalize hresult : Except.error Halt.unfinished = result at h
  cases h with
  | sent hchild hdrained =>
    obtain ⟨complete, hdrain, -⟩ := hdrained.drain
    exact ⟨_, _, _, complete, rfl, hchild, rfl, hdrain⟩
  | @skipMode on books failure => cases failure <;> cases hresult
  | _ => cases hresult

/-- A line comes to an end if the patience is enough for what the child has to say. -/
theorem runLine_ends {line : Line} {s : RunState β σ} (h : queues.awaited line s + 1 < r.patience) :
    ((r.runLine line).run.run s).1 ≠ .error .unfinished := by
  obtain ⟨events, result, s', hline⟩ := r.runLine_follows line s
  rw [hline.does.ends]
  rintro rfl
  obtain ⟨text, child, drain, complete, hcommand, hchild, rfl, hdrain⟩ :=
    hline.rule.drain_of_unfinished
  have hawaited : queues.awaited line s =
      (queues.queue (r.host.send s.host child text).1 child).length := by
    have hlive : s.child = some child := hchild
    rw [Host.Queues.awaited, hcommand, hlive]
  -- Writing and flushing the text do not touch the host before the text is sent.
  have htalk : r.Conversation (r.afterAll s.parties
      [.write (sendLine text) none, .flush none, .send child text none]) drain s'.parties :=
    hline.does.answered.2.2.2
  have hbound : (polledIn child drain).length ≤
      (queues.queue (r.host.send s.host child text).1 child).length + complete.toNat :=
    Drain.length_polledIn_le queues child hdrain htalk
  have hone : complete.toNat ≤ 1 := Bool.toNat_le complete
  have hpolls : r.patience ≤ drain.countP Event.isPoll := hline.rule.patience_le
  rw [Drain.countP_isPoll child hdrain] at hpolls
  omega

/-- Lines come to an end if the patience is enough. -/
theorem runLines_end (queues : r.host.Queues) (lines : List Line) (s : RunState β σ) :
    ∃ enough, ∀ patience, enough ≤ patience →
      (((r.withPatience patience).runLines lines).run.run s).1 ≠ .error .unfinished := by
  induction lines generalizing s with
  | nil => exact ⟨0, fun _ _ => nofun⟩
  | cons line rest ih =>
    have hends : (((r.withPatience (queues.awaited line s + 2)).runLine line).run.run s).1 ≠
        .error .unfinished :=
      runLine_ends (r := r.withPatience (queues.awaited line s + 2)) queues (Nat.lt_succ_self _)
    rcases hline : ((r.withPatience (queues.awaited line s + 2)).runLine line).run.run s
      with ⟨result, s₁⟩
    have hsame (patience : Nat) (hle : queues.awaited line s + 2 ≤ patience) :
        ((r.withPatience patience).runLine line).run.run s = (result, s₁) :=
      ((r.withPatience _).runLine_settles hle line s hends).trans hline
    rw [hline] at hends
    cases result with
    | error halt =>
      refine ⟨queues.awaited line s + 2, fun patience hle => ?_⟩
      rw [runLines, run_bind, hsame patience hle]
      exact hends
    | ok =>
      obtain ⟨enough, hrest⟩ := ih s₁
      refine ⟨max (queues.awaited line s + 2) enough, fun patience hle => ?_⟩
      rw [runLines, run_bind, hsame patience (Nat.le_trans (Nat.le_max_left _ _) hle)]
      exact hrest patience (Nat.le_trans (Nat.le_max_right _ _) hle)

/-- A run comes to an end if the patience is enough. -/
theorem run_ends (queues : r.host.Queues) (script : Script) (s : RunState β σ) :
    ∃ enough, ∀ patience, enough ≤ patience →
      ((r.withPatience patience).run script s).1 ≠ .unfinished := by
  obtain ⟨enough, hlines⟩ := runLines_end queues script.lines s
  refine ⟨enough, fun patience hle hunfinished => ?_⟩
  obtain ⟨s', hrun⟩ := run_eq_of_fst hunfinished
  obtain ⟨_, -, -, hran⟩ := ran_of_run hrun
  obtain ⟨work, result, s₁, hworked⟩ := hran.worked
  cases hworked.unfinished rfl
  have hends := hlines patience hle
  rw [hworked.performed.does.ends] at hends
  exact hends rfl

/-- Every run drains with discipline: each text that a child takes is followed by a drain of that
child, with the timeout of the runner, and nowhere else is a child polled or asked for its end. A
silent child is polled once for each text that it takes. Over a host with queues no child loses
anything, a drain polls at most once more than outcomes are queued, and with enough patience the
run comes to an end. -/
theorem run_drains (r : Runner β σ) {script : Script} {s s' : RunState β σ} {outcome : Outcome}
    (h : r.run script s = (outcome, s')) :
    ∃ events, s'.events = s.events ++ events ∧
      (∃ complete, Disciplined r.pollTimeout complete events ∧
        (complete = false → outcome = .unfinished)) ∧
      (outcome ≠ .unfinished → ∀ child, IsSilent child events →
        (polledIn child events).length = (acceptedBy child events).length) ∧
      ∀ queues : r.host.Queues,
        (∀ child, LosesNothing queues child s.parties events) ∧
          ∃ enough, ∀ patience, enough ≤ patience →
            ((r.withPatience patience).run script s).1 ≠ .unfinished := by
  obtain ⟨events, hevents, htalk, hran⟩ := ran_of_run h
  obtain ⟨complete, hdisciplined, hcut⟩ := hran.disciplined
  refine ⟨events, hevents, ⟨complete, hdisciplined, hcut⟩, fun hover child hsilent => ?_,
    fun queues => ⟨fun child => htalk.losesNothing queues child, run_ends queues script s⟩⟩
  cases complete with
  | false => exact absurd (hcut rfl) hover
  | true => exact hdisciplined.length_polledIn_of_silent hsilent

/-- A runner whose children echo, with a patience of three polls. -/
def echoing : Runner EchoState LimitedSink := ⟨EchoState.host, LimitedSink.sink, ⟨0⟩, 3⟩

/-- A script with two texts for its child. -/
def twoTexts : Script := ⟨"/", [⟨1, "RESTART"⟩, ⟨2, "x"⟩, ⟨3, "y"⟩], none⟩

/-- A child that pauses between its two lines of output. -/
def pausing : List ChildPlan := [{ replies := [[.line "a", .timeout, .line "b"]] }]

/-- A fresh start with children that close their output after one line. -/
def closingOutput : RunState EchoState LimitedSink :=
  { host := { options := { closeOutputAfter := some 1 } }, sink := {} }

/-- The first drain ends where the child pauses, and the second one gets the line behind the pause.
Of a child that closes its output a line is left in its queue. -/
theorem run_drains_what_is_left :
    (∃ s, planned.run twoTexts (.planned pausing) =
        (.finished { lines := 3, restarts := 1, sent := 2, echoed := 2 }, s) ∧
      polledIn 0 s.events = [.line "a", .timeout, .line "b", .timeout] ∧
      LosesNothing (r := planned) (ScriptedState.queues "prog") 0
        (RunState.planned pausing).parties s.events) ∧
    ∃ s, echoing.run twoTexts closingOutput =
        (.finished { lines := 3, restarts := 1, sent := 2, echoed := 1 }, s) ∧
      polledIn 0 s.events = [.line "x", .endOfStream, .endOfStream] ∧
      LosesNothing (r := echoing) EchoState.queues 0 closingOutput.parties s.events := by
  constructor
  · have hrun : (planned.run twoTexts (.planned pausing)).1 =
          .finished { lines := 3, restarts := 1, sent := 2, echoed := 2 } ∧
        polledIn 0 (planned.run twoTexts (.planned pausing)).2.events =
          [.line "a", .timeout, .line "b", .timeout] := by
      decide +kernel
    obtain ⟨hfinished, hpolled⟩ := hrun
    obtain ⟨s, hs⟩ := run_eq_of_fst hfinished
    rw [hs] at hpolled
    obtain ⟨events, hevents, -, -, hqueues⟩ := run_drains planned hs
    have hall : s.events = events := hevents
    exact ⟨s, hs, hpolled, hall ▸ (hqueues (ScriptedState.queues "prog")).1 0⟩
  · have hrun : (echoing.run twoTexts closingOutput).1 =
          .finished { lines := 3, restarts := 1, sent := 2, echoed := 1 } ∧
        polledIn 0 (echoing.run twoTexts closingOutput).2.events =
          [.line "x", .endOfStream, .endOfStream] := by
      decide +kernel
    obtain ⟨hfinished, hpolled⟩ := hrun
    obtain ⟨s, hs⟩ := run_eq_of_fst hfinished
    rw [hs] at hpolled
    obtain ⟨events, hevents, -, -, hqueues⟩ := run_drains echoing hs
    have hall : s.events = events := hevents
    exact ⟨s, hs, hpolled, hall ▸ (hqueues EchoState.queues).1 0⟩

end Runner

end LineScript
