import Mathlib.Data.List.Forall2
import LineScript.Proofs.ClosedForm
import LineScript.Proofs.Shown
import LineScript.Proofs.WriteAhead

/-!
# The transcript is a log

A transcript says what happened, in the order in which it happened: the commands
that a run announces, the texts that it hands to children, and the lines that come
back. Each line of the script that was carried out is a turn, with its command and
its events, and what was written in a turn is read off these two: a wait as seconds
that are read as this wait, a text as it is, a line that comes back without the
blanks at its ends. Main result: on a sink that never fails the transcript of a run
is the entries of its turns in a row, and nothing else; so its entries about children
are the calls and answers of the host, over all children of the run.
-/

namespace LineScript

/-- What a transcript says about a command, before it is carried out. -/
def Command.announcement? : Command → Option String
  | .skipMode on => some (Runner.skipLine on)
  | .delay duration => some (Runner.delayLine duration)
  | _ => none

/-- How long a command waits. -/
def Command.wait? : Command → Option Duration
  | .delay duration => some duration
  | _ => none

/-- What a transcript says about a call of the host: a text that is handed to a
child, and a line that comes back. -/
def Event.entry? : Event → Option String
  | .send _ text _ => some (Runner.sendLine text)
  | .poll _ _ (.line output) => some (Runner.echoLine output)
  | _ => none

/-- The line of output that an event brings. -/
def Event.output? : Event → Option String
  | .poll _ _ (.line output) => some output
  | _ => none

/-- What a transcript says about calls of the host, in order. -/
def entriesIn (events : List Event) : List String := events.filterMap Event.entry?

/-- The lines of output that polls bring, in order. -/
def outputsIn (events : List Event) : List String := events.filterMap Event.output?

/-- The waits, in order. -/
def waitsIn (events : List Event) : List Duration := events.filterMap Event.sleep?

namespace Runner

/-- Whether a line of the transcript shows a line of output. -/
def isEchoLine (line : String) : Bool := "< ".toList.isPrefixOf line.toList

/-- Whether a line of the transcript is about what a child gets or prints. -/
def isTraffic (line : String) : Bool := isSendLine line || isEchoLine line

/-- A line for output is recognised. -/
theorem isTraffic_echoLine (output : String) : isTraffic (echoLine output) = true := by
  simp [isTraffic, isEchoLine, echoLine, String.toList_append]

/-- A line that announces a text is recognised. -/
theorem isTraffic_sendLine (text : String) : isTraffic (sendLine text) = true := by
  rw [isTraffic, isSendLine_sendLine]
  rfl

/-- A line for a wait is not about a child. -/
theorem isTraffic_delayLine (duration : Duration) : isTraffic (delayLine duration) = false := by
  have hshown (seconds : String) : isEchoLine ("D: " ++ seconds ++ "\n") = false := by
    simp [isEchoLine, String.toList_append, List.isPrefixOf]
  rw [isTraffic, isSendLine_delayLine, Bool.false_or]
  exact hshown _

/-- A line for a skipped block is not about a child. -/
theorem isTraffic_skipLine (on : Bool) : isTraffic (skipLine on) = false := by
  cases on <;> decide

end Runner

/-- A line of a script that was carried out, with its command and what happened. -/
structure Turn where
  /-- The line. -/
  line : Line
  /-- Its command. -/
  command : Command
  /-- What happened. -/
  events : List Event

/-- What a transcript says about a turn. -/
def Turn.entries (turn : Turn) : List String :=
  turn.command.announcement?.toList ++ entriesIn turn.events

/-- Whether every line that comes back is written before anything else happens. -/
def Echoed (events : List Event) : Prop :=
  ∀ before event after output, events = before ++ event :: after →
    event.output? = some output → [.write (Runner.echoLine output) none] <+: after

/-- Whether a transcript is the log of a turn. -/
structure Turn.Logged (turn : Turn) : Prop where
  /-- The command is announced, and then every call gets its entry. -/
  written : writtenIn turn.events = turn.entries
  /-- The turn waits as long as its command says, and never else. -/
  waits : waitsIn turn.events = turn.command.wait?.toList
  /-- A line that comes back is written before anything else happens. -/
  echoed : Echoed turn.events
  /-- A turn hands out nothing, or the text of its command. -/
  own : sentIn turn.events = [] ∨
    ∃ text, turn.command = .send text ∧ sentIn turn.events = [text]
  /-- A turn that hands out nothing has no entries for calls. -/
  traceless : sentIn turn.events = [] → entriesIn turn.events = []
  /-- The text comes first, and then the lines that come back. -/
  ordered : ∀ text, sentIn turn.events = [text] → entriesIn turn.events =
    Runner.sendLine text :: (outputsIn turn.events).map Runner.echoLine

/-- Whether an entry shows a line of output: the line without the blanks at its ends. -/
def ShowsOutput (entry output : String) : Prop :=
  ∃ before shown after : List Char, output.toList = before ++ shown ++ after ∧
    (∀ c ∈ before, Text.isBlank c = true) ∧ (∀ c ∈ after, Text.isBlank c = true) ∧
    Text.IsBare shown ∧ entry = "< " ++ String.ofList shown ++ "\n"

/-- How the entries of a turn are spelled, command by command. -/
structure Turn.Spelled (turn : Turn) : Prop where
  /-- A skipped block is announced where it begins and where it ends. -/
  skipMode : ∀ on, turn.command = .skipMode on →
    turn.entries = [if on then "skip mode on\n" else "skip mode off\n"]
  /-- A wait is announced, with seconds that are read as this wait. -/
  delay : ∀ duration, turn.command = .delay duration → ∃ seconds : String,
    turn.entries = ["D: " ++ seconds ++ "\n"] ∧ Directive.parseDelay seconds.toList = .ok duration
  /-- A text is announced if it is handed to a child, and the lines that come back follow. -/
  send : ∀ text, turn.command = .send text →
    sentIn turn.events = [] ∧ turn.entries = [] ∨
      sentIn turn.events = [text] ∧ ∃ shown, turn.entries = ("> " ++ text ++ "\n") :: shown ∧
        List.Forall₂ ShowsOutput shown (outputsIn turn.events)
  /-- Any other command leaves no trace. -/
  traceless : (∀ on, turn.command ≠ .skipMode on) → (∀ duration, turn.command ≠ .delay duration) →
    (∀ text, turn.command ≠ .send text) → turn.entries = []

/-- Whether no call of the sink reports a failure. -/
def SinkSucceeds (events : List Event) : Prop :=
  ∀ event ∈ events, event.isHostCall = false → event.fault? = none

/-- Nothing has to be written where no line comes back. -/
theorem Echoed.of_none {events : List Event} (h : ∀ event ∈ events, event.output? = none) :
    Echoed events := by
  intro before event after output heq houtput
  have hmem : event ∈ events := by
    rw [heq]
    exact List.mem_append_right _ List.mem_cons_self
  rw [h event hmem] at houtput
  cases houtput

/-- An event that brings no line may come before. -/
theorem Echoed.cons {event : Event} {events : List Event} (h : event.output? = none)
    (hrest : Echoed events) : Echoed (event :: events) := by
  intro before other after output heq houtput
  cases before with
  | nil =>
    obtain ⟨rfl, _⟩ := List.cons.inj heq
    rw [h] at houtput
    cases houtput
  | cons first before =>
    obtain ⟨_, heq⟩ := List.cons.inj heq
    exact hrest before other after output heq houtput

/-- A line that comes back may come before, with its entry. -/
theorem Echoed.line {child : Nat} {timeout : Duration} {output : String} {events : List Event}
    (hrest : Echoed events) :
    Echoed (.poll child timeout (.line output) :: .write (Runner.echoLine output) none ::
      events) := by
  intro before other after output' heq houtput
  cases before with
  | nil =>
    simp only [List.nil_append, List.cons.injEq] at heq
    obtain ⟨rfl, rfl⟩ := heq
    cases houtput
    exact ⟨events, rfl⟩
  | cons first before =>
    obtain ⟨_, heq⟩ := List.cons.inj heq
    exact Echoed.cons rfl hrest before other after output' heq houtput

/-- Silent events leave no trace. -/
theorem silent_leaves_no_trace {events : List Event}
    (h : ∀ event ∈ events, event.isSilent = true) :
    entriesIn events = [] ∧ waitsIn events = [] ∧ Echoed events := by
  have hquiet (event : Event) (hevent : event.isSilent = true) :
      event.entry? = none ∧ event.sleep? = none ∧ event.output? = none := by
    cases event <;> first | exact ⟨rfl, rfl, rfl⟩ | cases hevent
  exact ⟨List.filterMap_eq_nil_iff.mpr fun event hmem => (hquiet event (h event hmem)).1,
    List.filterMap_eq_nil_iff.mpr fun event hmem => (hquiet event (h event hmem)).2.1,
    .of_none fun event hmem => (hquiet event (h event hmem)).2.2⟩

/-- A turn that hands out nothing and gets nothing back is logged by its announcement. -/
theorem Turn.Logged.of_traceless {turn : Turn} (hsent : sentIn turn.events = [])
    (hentries : entriesIn turn.events = [])
    (hwritten : writtenIn turn.events = turn.command.announcement?.toList)
    (hwaits : waitsIn turn.events = turn.command.wait?.toList) (hechoed : Echoed turn.events) :
    turn.Logged where
  written := by rw [hwritten, Turn.entries, hentries, List.append_nil]
  waits := hwaits
  echoed := hechoed
  own := .inl hsent
  traceless := fun _ => hentries
  ordered := fun text h => absurd (hsent.symm.trans h) (List.cons_ne_nil text []).symm

/-- A restart is logged: it leaves no trace. -/
theorem Turn.Logged.of_silent {events : List Event} (h : ∀ event ∈ events, event.isSilent = true)
    (line : Line) (env : Environment) : Turn.Logged ⟨line, .restart env, events⟩ := by
  obtain ⟨_, hwritten, hsent⟩ := silent_announces_nothing h
  obtain ⟨hentries, hwaits, hechoed⟩ := silent_leaves_no_trace h
  exact .of_traceless hsent hentries hwritten hwaits hechoed

/-- Calls that hand out nothing have the lines that come back as their entries. -/
theorem entriesIn_of_sentIn {events : List Event} (h : sentIn events = []) :
    entriesIn events = (outputsIn events).map Runner.echoLine := by
  rw [entriesIn, outputsIn, List.map_filterMap]
  refine List.filterMap_congr fun event hmem => ?_
  have hnone : event.sent? = none := List.filterMap_eq_nil_iff.mp h event hmem
  cases event with
  | send => cases hnone
  | poll child timeout outcome => cases outcome <;> rfl
  | _ => rfl

/-- The entry for a line of output shows it. -/
theorem showsOutput_echoLine (output : String) : ShowsOutput (Runner.echoLine output) output := by
  obtain ⟨before, after, houtput, hbefore, hafter, hbare⟩ := Text.exists_trimmed output.toList
  exact ⟨before, _, after, houtput, hbefore, hafter, hbare, rfl⟩

/-- The entries of a logged turn are spelled out, if its wait is one that a line can ask for. -/
theorem Turn.Logged.spelled {turn : Turn} (h : turn.Logged)
    (hread : ∀ duration, turn.command = .delay duration →
      ∃ argument, Directive.parseDelay argument = .ok duration) : turn.Spelled := by
  -- Only a turn with a text hands out anything, so the others have their announcement only.
  have hannounced (hother : ∀ text, turn.command ≠ .send text) :
      turn.entries = turn.command.announcement?.toList := by
    rcases h.own with hsent | ⟨text, hcommand, _⟩
    · rw [Turn.entries, h.traceless hsent, List.append_nil]
    · exact absurd hcommand (hother text)
  constructor
  case skipMode =>
    intro on hcommand
    rw [hannounced (by simp [hcommand]), hcommand]
    cases on <;> rfl
  case delay =>
    intro duration hcommand
    obtain ⟨argument, hargument⟩ := hread duration hcommand
    have hparsed := Duration.parse_render Duration.transcriptLayout
      (Directive.parseDelay_eq_ok_iff.mp hargument)
    refine ⟨duration.render Duration.transcriptLayout, ?_,
      Directive.parseDelay_eq_ok_iff.mpr hparsed⟩
    rw [hannounced (by simp [hcommand]), hcommand]
    rfl
  case send =>
    intro text hcommand
    have hentries : turn.entries = entriesIn turn.events := by
      rw [Turn.entries, hcommand]
      rfl
    rw [hentries]
    rcases h.own with hsent | ⟨_, hown, hsent⟩
    · exact .inl ⟨hsent, h.traceless hsent⟩
    · obtain rfl : text = _ := Command.send.inj (hcommand.symm.trans hown)
      refine .inr ⟨hsent, _, h.ordered text hsent, ?_⟩
      exact List.forall₂_map_left_iff.mpr (List.forall₂_same.mpr fun output _ =>
        showsOutput_echoLine output)
  case traceless =>
    intro hskip hdelay hsend
    rw [hannounced hsend]
    cases hcommand : turn.command with
    | skipMode on => exact absurd hcommand (hskip on)
    | delay duration => exact absurd hcommand (hdelay duration)
    | _ => rfl

/-- The entries about calls of the host are about children. -/
theorem isTraffic_of_mem_entriesIn {events : List Event} {entry : String}
    (h : entry ∈ entriesIn events) : Runner.isTraffic entry = true := by
  obtain ⟨event, _, hentry⟩ := List.mem_filterMap.mp h
  cases event with
  | send child text failure =>
    cases hentry
    exact Runner.isTraffic_sendLine text
  | poll child timeout outcome =>
    cases outcome with
    | line output =>
      cases hentry
      exact Runner.isTraffic_echoLine output
    | _ => cases hentry
  | _ => cases hentry

/-- The announcement of a command is not about a child. -/
theorem Command.isTraffic_announcement {command : Command} {entry : String}
    (h : command.announcement? = some entry) : Runner.isTraffic entry = false := by
  cases command with
  | skipMode on =>
    cases h
    exact Runner.isTraffic_skipLine on
  | delay duration =>
    cases h
    exact Runner.isTraffic_delayLine duration
  | _ => cases h

/-- What is written in a turn about children is about the calls of the turn. -/
theorem Turn.Logged.traffic_eq {turn : Turn} (h : turn.Logged) :
    (writtenIn turn.events).filter Runner.isTraffic = entriesIn turn.events := by
  have hannounced : turn.command.announcement?.toList.filter Runner.isTraffic = [] := by
    rw [List.filter_eq_nil_iff]
    intro entry hmem
    rw [Command.isTraffic_announcement (Option.mem_toList.mp hmem)]
    exact Bool.false_ne_true
  rw [h.written, Turn.entries, List.filter_append, hannounced, List.nil_append,
    List.filter_eq_self]
  exact fun entry hmem => isTraffic_of_mem_entriesIn hmem

namespace Runner

variable {β σ : Type} {r : Runner β σ}

/-- What a sink shows at the end of a conversation without failing writes. -/
theorem Conversation.contents_eq {contents : σ → Bytes} (hshows : r.sink.Shows contents)
    {p q : Parties β σ} {events : List Event} (h : r.Conversation p events q)
    (hquiet : SinkSucceeds events) :
    contents q.sink = contents p.sink ++ (writtenIn events).flatMap Utf8.ofString := by
  induction events generalizing p with
  | nil =>
    cases h
    exact (List.append_nil _).symm
  | cons event rest ih =>
    obtain ⟨hanswer, hrest⟩ := h
    obtain ⟨hevent, hquiet⟩ := List.forall_mem_cons.mp hquiet
    have hlater := ih hrest hquiet
    cases event with
    | write line failure =>
      have hnone : failure = none := hevent rfl
      subst hnone
      have htaken : contents (r.sink.write p.sink line).1 =
          contents p.sink ++ Utf8.ofString line := hshows.write p.sink line hanswer
      have hall : writtenIn (.write line none :: rest) = line :: writtenIn rest := rfl
      rw [hlater, hall, List.flatMap_cons, ← List.append_assoc]
      exact congrArg (· ++ _) htaken
    | flush failure =>
      have hkept : contents (r.sink.flush p.sink).1 = contents p.sink := hshows.flush p.sink
      rw [hlater]
      exact congrArg (· ++ _) hkept
    | _ => exact hlater

/-- A drain on a sink that does not fail writes its lines of output, and does not
wait. -/
theorem Drained.logged {child left : Nat} {books books' : Books} {events : List Event}
    {result : Except Halt Unit} (h : r.Drained child left books events result books')
    (hquiet : SinkSucceeds events) :
    writtenIn events = entriesIn events ∧ waitsIn events = [] ∧ Echoed events := by
  induction h with
  | exhausted => exact ⟨rfl, rfl, .of_none (List.forall_mem_nil _)⟩
  | @quiet left books outcome failure hline =>
    cases outcome with
    | line output => exact absurd rfl (hline output)
    | timeout => exact ⟨rfl, rfl, .of_none (by simp [Event.output?])⟩
    | endOfStream => exact ⟨rfl, rfl, .of_none (by simp [Event.output?])⟩
  | unwritten =>
    have hfailed := hquiet _ (List.mem_cons_of_mem _ List.mem_cons_self) rfl
    cases hfailed
  | exited => exact ⟨rfl, rfl, .line (.of_none (by simp [Event.output?]))⟩
  | @more left books output events result books' _ ih =>
    have hrest : SinkSucceeds events := fun event hmem => hquiet event (by simp [hmem])
    obtain ⟨hwritten, hwaits, hechoed⟩ := ih hrest
    refine ⟨?_, hwaits, .line (.cons rfl hechoed)⟩
    exact congrArg (echoLine output :: ·) hwritten

/-- A command on a sink that does not fail is logged. -/
theorem Executed.logged {line : Line} {command : Command} {books books' : Books}
    {events : List Event} {result : Except Halt Unit}
    (h : r.Executed line command books events result books') (hquiet : SinkSucceeds events) :
    Turn.Logged ⟨line, command, events⟩ := by
  have hsilent : Echoed [] := .of_none (List.forall_mem_nil _)
  cases h with
  | nothing => exact .of_traceless rfl rfl rfl rfl hsilent
  | @skipMode on books failure =>
    have hnone : failure = none := hquiet _ List.mem_cons_self rfl
    subst hnone
    exact .of_traceless rfl rfl rfl rfl (.cons rfl hsilent)
  | unended hended => exact .of_silent hended.isSilent line _
  | unstarted hended => exact .of_silent (hended.start_isSilent _ _ _) line _
  | restarted hended => exact .of_silent (hended.start_isSilent _ _ _) line _
  | dropped => exact .of_traceless rfl rfl rfl rfl hsilent
  | unwritten => cases hquiet _ List.mem_cons_self rfl
  | unflushed => cases hquiet _ (List.mem_cons_of_mem _ List.mem_cons_self) rfl
  | @refused text =>
    refine ⟨rfl, rfl, .cons rfl (.cons rfl (.cons rfl hsilent)), .inr ⟨text, rfl, rfl⟩, nofun, ?_⟩
    rintro _ ⟨⟩
    rfl
  | @sent text books child events result books' _ hdrained =>
    have hrest : SinkSucceeds events := fun event hmem => hquiet event (by simp [hmem])
    obtain ⟨hwritten, hwaits, hechoed⟩ := hdrained.logged hrest
    obtain ⟨_, _, hsent⟩ := hdrained.announces_nothing
    refine ⟨congrArg (sendLine text :: ·) hwritten, hwaits, ?_,
      .inr ⟨text, rfl, congrArg (text :: ·) hsent⟩, nofun, ?_⟩
    · exact .cons rfl (.cons rfl (.cons rfl hechoed))
    · intro text' htext
      obtain rfl : text = text' := (List.cons.inj htext).1
      exact congrArg (sendLine text :: ·) (entriesIn_of_sentIn hsent)
  | unannounced => cases hquiet _ List.mem_cons_self rfl
  | unshown => cases hquiet _ (List.mem_cons_of_mem _ List.mem_cons_self) rfl
  | slept => exact .of_traceless rfl rfl rfl rfl (.cons rfl (.cons rfl (.cons rfl hsilent)))
  | malformed => exact .of_traceless rfl rfl rfl rfl (.cons rfl hsilent)

/-- How the events of lines come from turns. -/
structure Transcribed (core : Core) (lines : List Line) (events : List Event)
    (turns : List Turn) : Prop where
  /-- The turns belong to the first lines, each to one. -/
  lines : turns.map Turn.line <+: lines
  /-- The commands are those of these lines. -/
  commands : turns.map Turn.command = core.commands (turns.map fun turn => turn.line.text)
  /-- Nothing happens outside the turns. -/
  events : events = turns.flatMap Turn.events
  /-- Every turn is logged. -/
  logged : ∀ turn ∈ turns, turn.Logged

/-- One more turn may come before. -/
theorem Transcribed.cons {core : Core} {line : Line} {rest : List Line}
    {own events : List Event} {turns : List Turn}
    (hturn : Turn.Logged ⟨line, (core.step line.text).1, own⟩)
    (h : Transcribed (core.step line.text).2 rest events turns) :
    Transcribed core (line :: rest) (own ++ events)
      (⟨line, (core.step line.text).1, own⟩ :: turns) where
  lines := by
    obtain ⟨later, hlater⟩ := h.lines
    exact ⟨later, congrArg (line :: ·) hlater⟩
  commands := congrArg ((core.step line.text).1 :: ·) h.commands
  events := congrArg (own ++ ·) h.events
  logged := List.forall_mem_cons.mpr ⟨hturn, h.logged⟩

/-- Without lines there are no turns. -/
theorem Transcribed.nil (core : Core) (lines : List Line) : Transcribed core lines [] [] :=
  ⟨List.nil_prefix, rfl, rfl, List.forall_mem_nil _⟩

/-- Lines on a sink that does not fail are logged, turn by turn. -/
theorem Performed.transcribed {s s' : RunState β σ} {lines : List Line} {events : List Event}
    {result : Except Halt Unit} (h : r.Performed s lines events result s')
    (hquiet : SinkSucceeds events) :
    ∃ turns, Transcribed s.core lines events turns ∧
      (result = .ok () → turns.map Turn.line = lines) := by
  induction h with
  | nil => exact ⟨[], .nil _ _, fun _ => rfl⟩
  | @stopped s line rest events halt s' hline =>
    have hturn := (Transcribed.nil (s.core.step line.text).2 rest).cons (hline.rule.logged hquiet)
    rw [List.append_nil] at hturn
    exact ⟨_, hturn, nofun⟩
  | @cons s line rest events events' result s₁ s₂ hline _ ih =>
    obtain ⟨hfirst, hlater⟩ := List.forall_mem_append.mp hquiet
    obtain ⟨turns, hturns, hall⟩ := ih hlater
    have hcore : s₁.core = (s.core.step line.text).2 := hline.rule.core_eq
    rw [hcore] at hturns
    refine ⟨_, hturns.cons (hline.rule.logged hfirst), fun hdone => ?_⟩
    exact congrArg (line :: ·) (hall hdone)

/-- What is written over all turns is what the transcript says about each. -/
theorem Transcribed.writtenIn_eq {core : Core} {lines : List Line} {events : List Event}
    {turns : List Turn} (h : Transcribed core lines events turns) :
    writtenIn events = turns.flatMap Turn.entries := by
  rw [h.events, writtenIn, List.filterMap_flatMap]
  exact List.flatMap_congr fun turn hmem => (h.logged turn hmem).written

/-- What is written about children over all turns is about the calls of the host. -/
theorem Transcribed.traffic_eq {core : Core} {lines : List Line} {events : List Event}
    {turns : List Turn} (h : Transcribed core lines events turns) :
    (writtenIn events).filter isTraffic = entriesIn events := by
  rw [h.events, writtenIn, entriesIn, List.filterMap_flatMap, List.filterMap_flatMap,
    List.filter_flatMap]
  exact List.flatMap_congr fun turn hmem => (h.logged turn hmem).traffic_eq

/-- The entries of all turns are spelled out: a wait is what the argument of its line is read
as, so its seconds are read as this wait. -/
theorem Transcribed.spelled {core : Core} {lines : List Line} {events : List Event}
    {turns : List Turn} (h : Transcribed core lines events turns) :
    ∀ turn ∈ turns, turn.Spelled := by
  intro turn hmem
  refine (h.logged turn hmem).spelled fun duration hcommand => ?_
  have hcommands : .delay duration ∈ core.commands (turns.map fun turn => turn.line.text) := by
    rw [← h.commands, ← hcommand]
    exact List.mem_map_of_mem hmem
  obtain ⟨_, line, _, hstep⟩ := Core.exists_step_of_mem_commands hcommands
  exact ⟨_, Core.parseDelay_of_step hstep⟩

/-- On a sink that never fails the transcript of a run is the entries of its turns,
one turn for each line that was carried out, and nothing is written after them.
The entries say what was done: a wait with seconds that are read as this wait, a
text as it was handed out, a line of output without the blanks at its ends. Those
about children are those of the calls of the host, in their order. -/
theorem run_transcribes (r : Runner β σ) (script : Script) {contents : σ → Bytes}
    (hshows : r.sink.Shows contents) {s s' : RunState β σ} {outcome : Outcome}
    (hworks : r.sink.Works s.sink) (h : r.run script s = (outcome, s')) :
    ∃ turns work closing, s'.events = s.events ++ (work ++ closing) ∧
      Transcribed s.core script.lines work turns ∧
      (∀ turn ∈ turns, turn.Spelled) ∧
      (∀ event ∈ closing, event.isSilent = true) ∧
      ((∃ report, outcome = .finished report) → turns.map Turn.line = script.lines) ∧
      contents s'.sink = contents s.sink ++ (turns.flatMap Turn.entries).flatMap Utf8.ofString ∧
      WriteAhead (work ++ closing) ∧
      (writtenIn (work ++ closing)).filter isTraffic = entriesIn (work ++ closing) := by
  obtain ⟨events, hevents, htalk, hran⟩ := ran_of_run h
  have hquiet : SinkSucceeds events := htalk.sink_faultless hworks
  obtain ⟨work, result, s₁, closing, hlines, rfl, hsilent, _, _, hfinished⟩ := hran.closing
  obtain ⟨turns, hturns, hall⟩ := hlines.transcribed (List.forall_mem_append.mp hquiet).1
  obtain ⟨_, hunwritten, _⟩ := silent_announces_nothing hsilent
  obtain ⟨hentries, _, _⟩ := silent_leaves_no_trace hsilent
  have hwritten : writtenIn (work ++ closing) = writtenIn work := by
    rw [writtenIn_append, hunwritten, List.append_nil]
  refine ⟨turns, work, closing, hevents, hturns, hturns.spelled, hsilent, ?_, ?_,
    hlines.writeAhead.append (.of_silent hsilent), ?_⟩
  · rintro ⟨report, hreport⟩
    exact hall (hfinished report hreport)
  · have hcontents : contents s'.sink = contents s.sink ++
        (writtenIn (work ++ closing)).flatMap Utf8.ofString := htalk.contents_eq hshows hquiet
    rw [hcontents, hwritten, hturns.writtenIn_eq]
  · have htraffic : entriesIn (work ++ closing) = entriesIn work := by
      rw [entriesIn, List.filterMap_append]
      exact (congrArg (entriesIn work ++ ·) hentries).trans (List.append_nil _)
    rw [hwritten, htraffic, hturns.traffic_eq]

/-- A script with a text before its first child, a skipped block, a wait and two children. -/
def blockAndWait : Script :=
  ⟨"/", [⟨1, "early"⟩, ⟨2, "START_SKIP"⟩, ⟨3, "RESTART"⟩, ⟨4, "END_SKIP"⟩, ⟨5, "RESTART"⟩, ⟨6, "a"⟩,
    ⟨7, "DELAY 0.5"⟩, ⟨8, "b"⟩, ⟨9, "RESTART"⟩, ⟨10, "c"⟩], none⟩

/-- A child whose second line of output surfaces after a later text, and a child
that takes no text. -/
def lateAndClosed : List ChildPlan :=
  [{ replies := [[.line " x ", .timeout, .line "y"]] },
    { sendFailure := some (0, Fault.brokenPipe) }]

/-- The second line of output stands behind the second text, and the text that is not taken
stands in the transcript too. -/
theorem run_transcribes_late_output :
    ∃ s, ∃ turns : List Turn, planned.run blockAndWait (.planned lateAndClosed) =
        (.failed (.write 10 "c" Fault.brokenPipe), s) ∧
      s.sink.written = (turns.flatMap Turn.entries).flatMap Utf8.ofString ∧
      (∀ turn ∈ turns, turn.Logged ∧ turn.Spelled) ∧
      s.sink.written =
        Utf8.ofString "skip mode on\nskip mode off\n> a\n< x\nD: 0.5\n> b\n< y\n> c\n" ∧
      entriesIn s.events = ["> a\n", "< x\n", "> b\n", "< y\n", "> c\n"] := by
  have hrun : (planned.run blockAndWait (.planned lateAndClosed)).1 =
        .failed (.write 10 "c" Fault.brokenPipe) ∧
      (planned.run blockAndWait (.planned lateAndClosed)).2.sink.written =
        Utf8.ofString "skip mode on\nskip mode off\n> a\n< x\nD: 0.5\n> b\n< y\n> c\n" ∧
      entriesIn (planned.run blockAndWait (.planned lateAndClosed)).2.events =
        ["> a\n", "< x\n", "> b\n", "< y\n", "> c\n"] := by
    decide +kernel
  obtain ⟨hfailed, hwritten, hentries⟩ := hrun
  obtain ⟨s, hs⟩ := run_eq_of_fst hfailed
  rw [hs] at hwritten hentries
  obtain ⟨turns, _, _, _, hturns, hspelled, _, _, hcontents, _⟩ :=
    run_transcribes planned _ LimitedSink.shows_written (LimitedSink.works rfl rfl) hs
  exact ⟨s, turns, hs, hcontents,
    fun turn hmem => ⟨hturns.logged turn hmem, hspelled turn hmem⟩, hwritten, hentries⟩

end Runner

end LineScript
