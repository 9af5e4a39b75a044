import LineScript.Proofs.Course

/-!
# The transcript is written ahead

A line for a child stands in the transcript before the child gets it, and a wait
before it begins: the entry is written, then flushed, and only then the call is
made. The sink may fail at any of these points, and whatever it does the order is
kept. Main result: in every run the texts that are sent are those announced in
the transcript, up to one entry whose flush failed, and the counter of texts
falls behind by no more than the one that stopped the run.
-/

namespace LineScript

namespace Runner

/-- Whether a line of the transcript announces a text for a child. -/
def isSendLine (line : String) : Bool := "> ".toList.isPrefixOf line.toList

/-- The line that announces a text is recognised. -/
theorem isSendLine_sendLine (text : String) : isSendLine (sendLine text) = true := by
  simp [isSendLine, sendLine, String.toList_append]

/-- A line for output announces nothing. -/
theorem isSendLine_echoLine (output : String) : isSendLine (echoLine output) = false := by
  simp [isSendLine, echoLine, String.toList_append, List.isPrefixOf]

/-- A line for a wait announces no text. -/
theorem isSendLine_delayLine (duration : Duration) : isSendLine (delayLine duration) = false := by
  have hshown (seconds : String) : isSendLine ("D: " ++ seconds ++ "\n") = false := by
    simp [isSendLine, String.toList_append, List.isPrefixOf]
  exact hshown _

/-- A line for a skipped block announces nothing. -/
theorem isSendLine_skipLine (on : Bool) : isSendLine (skipLine on) = false := by
  cases on <;> decide

end Runner

namespace Event

/-- The line that has to stand in the transcript before an event. -/
def announcement? : Event → Option String
  | .send _ text _ => some (Runner.sendLine text)
  | .sleep duration => some (Runner.delayLine duration)
  | _ => none

/-- The line that an event completes in the transcript. -/
def written? : Event → Option String
  | .write line none => some line
  | _ => none

/-- The text that an event hands to a child, taken or not. -/
def sent? : Event → Option String
  | .send _ text _ => some text
  | _ => none

/-- Whether an event is about the life of a child only, or a flush or a warning. -/
def isSilent : Event → Bool
  | .start .. | .teardown .. | .flush _ | .warn _ => true
  | _ => false

end Event

/-- The lines that events complete in the transcript, in order. -/
def writtenIn (events : List Event) : List String := events.filterMap Event.written?

/-- The completed lines that announce a text, in order. -/
def sendLinesIn (events : List Event) : List String := (writtenIn events).filter Runner.isSendLine

/-- The texts that are handed to children, in order. -/
def sentIn (events : List Event) : List String := events.filterMap Event.sent?

/-- Whether everything that has to be announced comes right after its line was
written and flushed. -/
def WriteAhead (events : List Event) : Prop :=
  ∀ before event after line, events = before ++ event :: after →
    event.announcement? = some line → [.write line none, .flush none] <:+ before

/-- Completed lines of two lists of events. -/
theorem writtenIn_append (first second : List Event) :
    writtenIn (first ++ second) = writtenIn first ++ writtenIn second :=
  List.filterMap_append

/-- Announcing lines of two lists of events. -/
theorem sendLinesIn_append (first second : List Event) :
    sendLinesIn (first ++ second) = sendLinesIn first ++ sendLinesIn second := by
  rw [sendLinesIn, writtenIn_append, List.filter_append]
  rfl

/-- A completed line that announces a text is one of those. -/
theorem sendLinesIn_sendLine (text : String) (events : List Event) :
    sendLinesIn (.write (Runner.sendLine text) none :: events) =
      Runner.sendLine text :: sendLinesIn events :=
  List.filter_cons_of_pos (Runner.isSendLine_sendLine text)

/-- A line that announces no text is none of those. -/
theorem sendLinesIn_otherLine {line : String} (h : Runner.isSendLine line = false)
    (failure : Option Fault) (events : List Event) :
    sendLinesIn (.write line failure :: events) = sendLinesIn events := by
  cases failure with
  | none => exact List.filter_cons_of_neg (by simp [h])
  | some fault => rfl

/-- Texts of two lists of events. -/
theorem sentIn_append (first second : List Event) :
    sentIn (first ++ second) = sentIn first ++ sentIn second :=
  List.filterMap_append

/-- What is written ahead may follow each other. -/
theorem WriteAhead.append {first second : List Event} (hfirst : WriteAhead first)
    (hsecond : WriteAhead second) : WriteAhead (first ++ second) := by
  intro before event after line heq hline
  rcases List.append_eq_append_iff.mp heq with ⟨rest, hbefore, hrest⟩ | ⟨rest, hbefore, hrest⟩
  · -- The event is one of the second list.
    rw [hbefore]
    exact (hsecond rest event after line hrest hline).trans (List.suffix_append _ _)
  · cases rest with
    | nil => exact (hsecond [] event after line hrest.symm hline).trans List.nil_suffix
    | cons head rest =>
      rw [List.cons_append] at hrest
      obtain ⟨rfl, _⟩ := List.cons.inj hrest
      exact hfirst before event rest line hbefore hline

/-- Nothing has to be announced where no event asks for it. -/
theorem WriteAhead.of_none {events : List Event}
    (h : ∀ event ∈ events, event.announcement? = none) : WriteAhead events := by
  intro before event after line heq hline
  have hmem : event ∈ events := by
    rw [heq]
    exact List.mem_append_right _ List.mem_cons_self
  rw [h event hmem] at hline
  cases hline

/-- An event may come right after its line was written and flushed. -/
theorem WriteAhead.announced {event : Event} {line : String}
    (h : event.announcement? = some line) :
    WriteAhead [.write line none, .flush none, event] := by
  intro before other after line' heq hline
  match before, heq with
  | [], heq =>
    obtain ⟨rfl, _⟩ := List.cons.inj heq
    cases hline
  | [_], heq =>
    obtain ⟨_, hrest⟩ := List.cons.inj heq
    obtain ⟨rfl, _⟩ := List.cons.inj hrest
    cases hline
  | [first, second], heq =>
    simp only [List.cons_append, List.nil_append, List.cons.injEq] at heq
    obtain ⟨rfl, rfl, rfl, _⟩ := heq
    rw [h] at hline
    cases hline
    exact List.suffix_refl _
  | _ :: _ :: _ :: _, heq => simp at heq

/-- How the announced texts compare with those that are sent, and with the counter
of texts before and after. -/
inductive Announced (sent sent' : Nat) : List Event → Except Halt Unit → Prop
  /-- All of them are sent and counted. -/
  | all {events result} (hsent : sendLinesIn events = (sentIn events).map Runner.sendLine)
      (hcount : sent' = sent + (sendLinesIn events).length) : Announced sent sent' events result
  /-- The last one is sent, but not taken. -/
  | refused {events error} (hsent : sendLinesIn events = (sentIn events).map Runner.sendLine)
      (hcount : sent' + 1 = sent + (sendLinesIn events).length) :
      Announced sent sent' events (.error (.failed error))
  /-- The last one is not sent, since its line cannot be flushed. -/
  | unflushed {before text fault}
      (hsent : sendLinesIn before = (sentIn before).map Runner.sendLine)
      (hcount : sent' = sent + (sendLinesIn before).length) :
      Announced sent sent' (before ++ [.write (Runner.sendLine text) none, .flush (some fault)])
        (.error (.failed (.io fault)))

/-- Where nothing is announced, sent or counted, nothing is missing. -/
theorem Announced.of_nothing {sent : Nat} {events : List Event} {result : Except Halt Unit}
    (hlines : sendLinesIn events = []) (hsent : sentIn events = []) :
    Announced sent sent events result := by
  refine .all ?_ ?_
  · rw [hlines, hsent]
    rfl
  · rw [hlines]
    rfl

/-- Texts that are all sent and counted may come before. -/
theorem Announced.append {sent sent' sent'' : Nat} {first second : List Event}
    {result : Except Halt Unit} (hsent : sendLinesIn first = (sentIn first).map Runner.sendLine)
    (hcount : sent' = sent + (sendLinesIn first).length)
    (h : Announced sent' sent'' second result) :
    Announced sent sent'' (first ++ second) result := by
  have hboth {events : List Event} (h : sendLinesIn events = (sentIn events).map Runner.sendLine) :
      sendLinesIn (first ++ events) = (sentIn (first ++ events)).map Runner.sendLine := by
    rw [sendLinesIn_append, sentIn_append, List.map_append, hsent, h]
  have hlength (events : List Event) : (sendLinesIn (first ++ events)).length =
      (sendLinesIn first).length + (sendLinesIn events).length := by
    rw [sendLinesIn_append, List.length_append]
  cases h with
  | all hsent' hcount' =>
    refine .all (hboth hsent') ?_
    rw [hlength]
    omega
  | refused hsent' hcount' =>
    refine .refused (hboth hsent') ?_
    rw [hlength]
    omega
  | unflushed hsent' hcount' =>
    rw [← List.append_assoc]
    refine .unflushed (hboth hsent') ?_
    rw [hlength]
    omega

/-- Silent events announce nothing, write nothing and send nothing. -/
theorem silent_announces_nothing {events : List Event}
    (h : ∀ event ∈ events, event.isSilent = true) :
    (∀ event ∈ events, event.announcement? = none) ∧ writtenIn events = [] ∧
      sentIn events = [] := by
  have hquiet (event : Event) (hevent : event.isSilent = true) :
      event.announcement? = none ∧ event.written? = none ∧ event.sent? = none := by
    cases event <;> first | exact ⟨rfl, rfl, rfl⟩ | cases hevent
  exact ⟨fun event hmem => (hquiet event (h event hmem)).1,
    List.filterMap_eq_nil_iff.mpr fun event hmem => (hquiet event (h event hmem)).2.1,
    List.filterMap_eq_nil_iff.mpr fun event hmem => (hquiet event (h event hmem)).2.2⟩

/-- Silent events write ahead. -/
theorem WriteAhead.of_silent {events : List Event} (h : ∀ event ∈ events, event.isSilent = true) :
    WriteAhead events :=
  .of_none (silent_announces_nothing h).1

/-- Silent events have nothing to send. -/
theorem Announced.of_silent {sent : Nat} {events : List Event} {result : Except Halt Unit}
    (h : ∀ event ∈ events, event.isSilent = true) : Announced sent sent events result := by
  obtain ⟨_, hwritten, hsent⟩ := silent_announces_nothing h
  exact .of_nothing (congrArg (List.filter Runner.isSendLine) hwritten) hsent

namespace Runner

variable {β σ : Type} {r : Runner β σ}

/-- A drain announces nothing and sends nothing. -/
theorem Drained.announces_nothing {child left : Nat} {books books' : Books} {events : List Event}
    {result : Except Halt Unit} (h : r.Drained child left books events result books') :
    (∀ event ∈ events, event.announcement? = none) ∧ sendLinesIn events = [] ∧
      sentIn events = [] := by
  have hecho (output : String) (rest : List Event) :
      sendLinesIn (.write (echoLine output) none :: rest) = sendLinesIn rest :=
    sendLinesIn_otherLine (isSendLine_echoLine output) none rest
  induction h with
  | exhausted => exact ⟨List.forall_mem_nil _, rfl, rfl⟩
  | quiet => exact ⟨by simp [Event.announcement?], rfl, rfl⟩
  | unwritten => exact ⟨by simp [Event.announcement?], rfl, rfl⟩
  | exited => exact ⟨by simp [Event.announcement?], hecho _ _, rfl⟩
  | more _ ih =>
    obtain ⟨hnone, hlines, hsent⟩ := ih
    exact ⟨by simpa [Event.announcement?] using hnone, (hecho _ _).trans hlines, hsent⟩

/-- The end of a child is silent. -/
theorem Ended.isSilent {child : Option Nat} {events : List Event} {failure : Option Fault}
    (h : Ended child events failure) : ∀ event ∈ events, event.isSilent = true := by
  cases h with
  | absent => exact List.forall_mem_nil _
  | @called child answer =>
    obtain ⟨failure, killedAfter⟩ := answer
    cases killedAfter <;> simp [Event.ending, Event.isSilent]

/-- The end of a child and the start of the next one are silent. -/
theorem Ended.start_isSilent {child : Option Nat} {events : List Event} {failure : Option Fault}
    (h : Ended child events failure) (next : Nat) (env : Environment) (failure' : Option Fault) :
    ∀ event ∈ events ++ [.start next env failure'], event.isSilent = true :=
  List.forall_mem_append.mpr ⟨h.isSilent, List.forall_mem_singleton.mpr rfl⟩

/-- A command writes ahead. -/
theorem Executed.writeAhead {line : Line} {command : Command} {books books' : Books}
    {events : List Event} {result : Except Halt Unit}
    (h : r.Executed line command books events result books') : WriteAhead events := by
  cases h with
  | refused => exact .announced rfl
  | sent _ hdrained =>
    exact (WriteAhead.announced rfl).append (.of_none hdrained.announces_nothing.1)
  | slept => exact .announced rfl
  | unended hended => exact .of_silent hended.isSilent
  | unstarted hended => exact .of_silent (hended.start_isSilent _ _ _)
  | restarted hended => exact .of_silent (hended.start_isSilent _ _ _)
  | _ => exact .of_none (by simp [Event.announcement?])

/-- What a command announces. -/
theorem Executed.announced {line : Line} {command : Command} {books books' : Books}
    {events : List Event} {result : Except Halt Unit}
    (h : r.Executed line command books events result books') :
    Announced books.report.sent books'.report.sent events result := by
  cases h with
  | nothing => exact .of_nothing rfl rfl
  | @skipMode on books failure =>
    exact .of_nothing (sendLinesIn_otherLine (isSendLine_skipLine on) failure []) rfl
  | unended hended => exact .of_silent hended.isSilent
  | unstarted hended => exact .of_silent (hended.start_isSilent _ _ _)
  | restarted hended => exact .of_silent (hended.start_isSilent _ _ _)
  | dropped => exact .of_nothing rfl rfl
  | unwritten => exact .of_nothing rfl rfl
  | @unflushed text books child fault => exact @Announced.unflushed _ _ [] text fault rfl rfl
  | @refused text books child fault =>
    have hlines := sendLinesIn_sendLine text [.flush none, .send child text (some fault)]
    refine .refused ?_ ?_
    · rw [hlines]
      rfl
    · rw [hlines]
      rfl
  | @sent text books child events result books' _ hdrained =>
    obtain ⟨_, hquiet, hsent⟩ := hdrained.announces_nothing
    have hlines : sendLinesIn (.write (sendLine text) none :: .flush none ::
        .send child text none :: events) = [sendLine text] := by
      rw [sendLinesIn_sendLine]
      exact congrArg (sendLine text :: ·) hquiet
    have htexts : sentIn (.write (sendLine text) none :: .flush none ::
        .send child text none :: events) = [text] :=
      congrArg (text :: ·) hsent
    refine .all ?_ ?_
    · rw [hlines, htexts]
      rfl
    · rw [hlines, hdrained.books_eq]
      rfl
  | unannounced => exact .of_nothing rfl rfl
  | @unshown duration books fault =>
    exact .of_nothing (sendLinesIn_otherLine (isSendLine_delayLine duration) none _) rfl
  | @slept duration books =>
    exact .of_nothing (sendLinesIn_otherLine (isSendLine_delayLine duration) none _) rfl
  | malformed => exact .of_nothing rfl rfl

/-- Lines in turn write ahead. -/
theorem Performed.writeAhead {s s' : RunState β σ} {lines : List Line} {events : List Event}
    {result : Except Halt Unit} (h : r.Performed s lines events result s') :
    WriteAhead events := by
  induction h with
  | nil => exact .of_none (List.forall_mem_nil _)
  | stopped hline => exact hline.rule.writeAhead
  | cons hline _ ih => exact hline.rule.writeAhead.append ih

/-- What lines in turn announce. -/
theorem Performed.announced {s s' : RunState β σ} {lines : List Line} {events : List Event}
    {result : Except Halt Unit} (h : r.Performed s lines events result s') :
    Announced s.report.sent s'.report.sent events result := by
  induction h with
  | nil => exact .of_nothing rfl rfl
  | stopped hline => exact hline.rule.announced
  | @cons s line rest events events' result s₁ s₂ hline _ ih =>
    have hfirst : Announced s.report.sent s₁.report.sent events (.ok ()) := hline.rule.announced
    cases hfirst with
    | all hsent hcount => exact ih.append hsent hcount

/-- Every run does the work on its lines, and what comes after it is silent. -/
theorem Ran.closing {script : Script} {s : RunState β σ} {books' : Books} {events : List Event}
    {outcome : Outcome} (h : r.Ran script s events outcome books') :
    ∃ work result s₁ closing, r.Performed s script.lines work result s₁ ∧
      events = work ++ closing ∧ (∀ event ∈ closing, event.isSilent = true) ∧
      books'.report = s₁.report ∧
      (∀ error, result = .error (.failed error) → outcome = .failed error) ∧
      ∀ report, outcome = .finished report → result = .ok () := by
  obtain ⟨work, result, s₁, closing, hlines, hevents, hending, hrest⟩ := h.ending
  have hsilent : ∀ event ∈ closing, event.isSilent = true := by
    intro event hmem
    have hend := hending event hmem
    cases event <;> first | rfl | cases hend
  exact ⟨work, result, s₁, closing, hlines, hevents, hsilent, hrest⟩

/-- Whatever the host and the sink do, a text is sent right after its line was
written to the transcript and flushed, and a wait begins right after its own. So
the texts that are sent are those whose lines were completed, up to a last one
whose flush failed and ended the run; and the counter of texts grows by the number
of these lines, or by one less in a run that failed. -/
theorem run_writesAhead (r : Runner β σ) (script : Script) {s s' : RunState β σ}
    {outcome : Outcome} (h : r.run script s = (outcome, s')) :
    ∃ events, s'.events = s.events ++ events ∧ r.Conversation s.parties events s'.parties ∧
      WriteAhead events ∧
      (sendLinesIn events = (sentIn events).map sendLine ∨
        ∃ before text fault after,
          events = before ++ .write (sendLine text) none :: .flush (some fault) :: after ∧
          sendLinesIn events = (sentIn events).map sendLine ++ [sendLine text] ∧
          sendLinesIn before = (sentIn before).map sendLine ∧ sendLinesIn after = [] ∧
          sentIn after = [] ∧ outcome = .failed (.io fault)) ∧
      (s'.report.sent = s.report.sent + (sendLinesIn events).length ∨
        s'.report.sent + 1 = s.report.sent + (sendLinesIn events).length ∧
          ∃ error, outcome = .failed error) := by
  obtain ⟨events, hevents, htalk, hran⟩ := ran_of_run h
  obtain ⟨work, result, s₁, closing, hlines, rfl, hsilent, hreport, hfailed, _⟩ := hran.closing
  obtain ⟨_, hwritten, hunsent⟩ := silent_announces_nothing hsilent
  have hnone : sendLinesIn closing = [] := congrArg (List.filter isSendLine) hwritten
  have hreport' : s'.report = s₁.report := hreport
  refine ⟨work ++ closing, hevents, htalk, hlines.writeAhead.append (.of_silent hsilent), ?_⟩
  rw [sendLinesIn_append, hnone, List.append_nil, sentIn_append, hunsent, List.append_nil, hreport']
  cases hlines.announced with
  | all hsent hcount => exact ⟨.inl hsent, .inl hcount⟩
  | refused hsent hcount => exact ⟨.inl hsent, .inr ⟨hcount, _, hfailed _ rfl⟩⟩
  | @unflushed before text fault hsent hcount =>
    have hown : sendLinesIn (before ++ [.write (sendLine text) none, .flush (some fault)]) =
        sendLinesIn before ++ [sendLine text] := by
      rw [sendLinesIn_append, sendLinesIn_sendLine]
      rfl
    have htexts : sentIn (before ++ [.write (sendLine text) none, .flush (some fault)]) =
        sentIn before := by
      rw [sentIn_append]
      exact List.append_nil _
    rw [hown, htexts]
    refine ⟨.inr ⟨before, text, fault, closing, ?_, ?_, hsent, hnone, hunsent, hfailed _ rfl⟩,
      .inr ⟨?_, _, hfailed _ rfl⟩⟩
    · rw [List.append_assoc]
      rfl
    · rw [hsent]
    · rw [List.length_append, hcount]
      rfl

/-- A script with a wait between two texts. -/
def waitBetweenTexts : Script :=
  ⟨"/", [⟨1, "RESTART"⟩, ⟨2, "hello"⟩, ⟨3, "DELAY 0"⟩, ⟨4, "world"⟩], none⟩

/-- A fresh start with one child to come and a sink whose fourth flush fails. -/
def failingFlush : RunState ScriptedState LimitedSink :=
  { host := { coming := [{}] }, sink := { flushLimit := some 3 } }

/-- A sink whose fourth flush fails keeps the line of a text that is never sent. -/
theorem run_writesAhead_of_failing_flush :
    ∃ s, planned.run waitBetweenTexts failingFlush = (.failed (.io LimitedSink.flushFailed), s) ∧
      WriteAhead s.events ∧ sendLinesIn s.events = [sendLine "hello", sendLine "world"] ∧
      sentIn s.events = ["hello"] := by
  have hrun : (planned.run waitBetweenTexts failingFlush).1 =
        .failed (.io LimitedSink.flushFailed) ∧
      sendLinesIn (planned.run waitBetweenTexts failingFlush).2.events =
        [sendLine "hello", sendLine "world"] ∧
      sentIn (planned.run waitBetweenTexts failingFlush).2.events = ["hello"] := by
    decide +kernel
  obtain ⟨hfailed, hlines, hsent⟩ := hrun
  obtain ⟨s, hs⟩ := run_eq_of_fst hfailed
  rw [hs] at hlines hsent
  obtain ⟨events, hevents, _, hahead, _⟩ := run_writesAhead planned _ hs
  have hall : s.events = events := hevents
  exact ⟨s, hs, hall ▸ hahead, hlines, hsent⟩

end Runner

end LineScript
