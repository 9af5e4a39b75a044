import LineScript.Proofs.Balance
import LineScript.Proofs.Delivery
import LineScript.Proofs.Transcript

/-!
# What a report counts

A report counts lines and what they led to. Each counter is raised at one place, some
before and some after the call that they tell of, so a failure may leave a text or a
line of output uncounted. A run is read here as its turns, one for each line that was
read. Main result: every counter grows by the number of events, commands or lines that
it stands for; a run that fails misses at most the text and at most the line of output
of its last turn; and at no moment is more counted than lines were read.
-/

namespace LineScript

/-- Whether a command passes over a directive. -/
def Command.isMalformed : Command → Bool
  | .malformed _ => true
  | _ => false

/-- The text of an event that a child has taken. -/
def Event.taken? : Event → Option String
  | .send _ text none => some text
  | _ => none

/-- The texts that children have taken, in order. -/
def takenIn (events : List Event) : List String := events.filterMap Event.taken?

/-- The completed lines of the transcript that show a line of output, in order. -/
def echoesIn (events : List Event) : List String := (writtenIn events).filter Runner.isEchoLine

/-- The events of turns, in order. -/
def eventsOf (turns : List Turn) : List Event := turns.flatMap Turn.events

/-- The texts that the commands of turns are about, in order. -/
def textsOf (turns : List Turn) : List String := turns.filterMap fun turn => turn.command.text?

/-- The texts of turns that find no child, given the child that lives before them. -/
def unservedIn : Option Nat → List Turn → List String
  | _, [] => []
  | child, turn :: rest =>
    (if child.isNone then turn.command.text?.toList else []) ++
      unservedIn (liveAfter child turn.events) rest

/-- Whether every counter has grown by the number of what it stands for, over turns that
begin with the given child, and their events. -/
structure Accounted (child : Option Nat) (turns : List Turn) (events : List Event)
    (before after : Report) : Prop where
  /-- Every turn is a line that was read. -/
  lines : after.lines = before.lines + turns.length
  /-- Every start that succeeds is a restart. -/
  restarts : after.restarts = before.restarts + (startedIn events).length
  /-- Every text that a child takes is sent. -/
  sent : after.sent = before.sent + (takenIn events).length
  /-- Every text that finds no child is dropped. -/
  dropped : after.dropped = before.dropped + (unservedIn child turns).length
  /-- Every line for output that stands in the transcript is an echo. -/
  echoed : after.echoed = before.echoed + (echoesIn events).length
  /-- Every directive that is passed over is a warning. -/
  warnings : after.warnings = before.warnings + turns.countP fun turn => turn.command.isMalformed

/-- Whether all of something is counted, or all but one, which belongs to a text in the
last turn of a part that failed. -/
def CountedUpToLast (turns : List Turn) (result : Except Halt Unit) (whole counted : Nat) : Prop :=
  whole = counted ∨ whole = counted + 1 ∧ (∃ error, result = .error (.failed error)) ∧
    ∃ before line text own, turns = before ++ [⟨line, .send text, own⟩]

/-- Events of two lists of turns. -/
theorem eventsOf_cons (turn : Turn) (rest : List Turn) :
    eventsOf (turn :: rest) = turn.events ++ eventsOf rest := List.flatMap_cons

/-- The events of one turn. -/
theorem eventsOf_singleton (turn : Turn) : eventsOf [turn] = turn.events :=
  List.flatMap_singleton _ _

/-- The starts in two lists of events. -/
theorem startedIn_append (first second : List Event) :
    startedIn (first ++ second) = startedIn first ++ startedIn second := List.filterMap_append

/-- The texts taken in two lists of events. -/
theorem takenIn_append (first second : List Event) :
    takenIn (first ++ second) = takenIn first ++ takenIn second := List.filterMap_append

/-- The output in two lists of events. -/
theorem outputsIn_append (first second : List Event) :
    outputsIn (first ++ second) = outputsIn first ++ outputsIn second := List.filterMap_append

/-- The echoes in two lists of events. -/
theorem echoesIn_append (first second : List Event) :
    echoesIn (first ++ second) = echoesIn first ++ echoesIn second := by
  rw [echoesIn, writtenIn_append, List.filter_append]
  rfl

/-- A completed line for output is an echo. -/
theorem echoesIn_echoLine (output : String) (events : List Event) :
    echoesIn (.write (Runner.echoLine output) none :: events) =
      Runner.echoLine output :: echoesIn events := by
  have hecho : Runner.isEchoLine (Runner.echoLine output) = true := by
    simp [Runner.isEchoLine, Runner.echoLine, String.toList_append]
  exact List.filter_cons_of_pos hecho

/-- A line that is no line for output is no echo. -/
theorem echoesIn_otherLine {line : String} (h : Runner.isEchoLine line = false)
    (failure : Option Fault) (events : List Event) :
    echoesIn (.write line failure :: events) = echoesIn events := by
  cases failure with
  | none => exact List.filter_cons_of_neg (by simp [h])
  | some fault => rfl

/-- What comes after the lines of a script is not counted. -/
theorem ending_uncounted {events : List Event} (h : ∀ event ∈ events, event.isEnding = true) :
    startedIn events = [] ∧ takenIn events = [] ∧ outputsIn events = [] ∧ echoesIn events = [] := by
  have hnone (event : Event) (hevent : event.isEnding = true) :
      event.started? = none ∧ event.taken? = none ∧ event.output? = none ∧
        event.written? = none := by
    cases event <;> first | exact ⟨rfl, rfl, rfl, rfl⟩ | cases hevent
  have hwritten : writtenIn events = [] :=
    List.filterMap_eq_nil_iff.mpr fun event hmem => (hnone event (h event hmem)).2.2.2
  refine ⟨?_, ?_, ?_, ?_⟩
  · exact List.filterMap_eq_nil_iff.mpr fun event hmem => (hnone event (h event hmem)).1
  · exact List.filterMap_eq_nil_iff.mpr fun event hmem => (hnone event (h event hmem)).2.1
  · exact List.filterMap_eq_nil_iff.mpr fun event hmem => (hnone event (h event hmem)).2.2.1
  · rw [echoesIn, hwritten]
    rfl

/-- One more turn may come before. -/
theorem Accounted.cons {child : Option Nat} {turn : Turn} {rest : List Turn}
    {events : List Event} {before middle after : Report}
    (hfirst : Accounted child [turn] turn.events before middle)
    (hrest : Accounted (liveAfter child turn.events) rest events middle after) :
    Accounted child (turn :: rest) (turn.events ++ events) before after := by
  obtain ⟨hlines, hrestarts, hsent, hdropped, hechoed, hwarnings⟩ := hfirst
  simp only [unservedIn, List.append_nil] at hdropped
  simp only [List.length_singleton] at hlines
  constructor
  · rw [hrest.lines, hlines, List.length_cons]
    omega
  · rw [hrest.restarts, hrestarts, startedIn_append, List.length_append]
    omega
  · rw [hrest.sent, hsent, takenIn_append, List.length_append]
    omega
  · rw [hrest.dropped, hdropped, unservedIn, List.length_append]
    omega
  · rw [hrest.echoed, hechoed, echoesIn_append, List.length_append]
    omega
  · have hsplit : (turn :: rest).countP (fun turn => turn.command.isMalformed) =
        [turn].countP (fun turn => turn.command.isMalformed) +
          rest.countP fun turn => turn.command.isMalformed := by
      rw [← List.countP_append, List.singleton_append]
    rw [hrest.warnings, hwarnings, hsplit]
    omega

/-- What comes after the lines of a script may follow. -/
theorem Accounted.append_ending {child : Option Nat} {turns : List Turn}
    {events closing : List Event} {before after : Report}
    (h : Accounted child turns events before after)
    (hclosing : ∀ event ∈ closing, event.isEnding = true) :
    Accounted child turns (events ++ closing) before after := by
  obtain ⟨hstarted, htaken, _, hechoes⟩ := ending_uncounted hclosing
  constructor
  · exact h.lines
  · rw [startedIn_append, hstarted, List.append_nil, h.restarts]
  · rw [takenIn_append, htaken, List.append_nil, h.sent]
  · exact h.dropped
  · rw [echoesIn_append, hechoes, List.append_nil, h.echoed]
  · exact h.warnings

/-- A turn is accounted for if the counters grow by what it shows. -/
theorem Accounted.of_eq {child : Option Nat} {turn : Turn} {before after : Report}
    (h : after =
      { lines := before.lines + 1
        restarts := before.restarts + (startedIn turn.events).length
        sent := before.sent + (takenIn turn.events).length
        dropped := before.dropped + (unservedIn child [turn]).length
        echoed := before.echoed + (echoesIn turn.events).length
        warnings := before.warnings + [turn].countP fun turn => turn.command.isMalformed }) :
    Accounted child [turn] turn.events before after := by
  subst h
  constructor <;> simp only [List.length_singleton]

/-- Nothing is missing from a part that was carried out. -/
theorem CountedUpToLast.eq {turns : List Turn} {whole counted : Nat}
    (h : CountedUpToLast turns (.ok ()) whole counted) : whole = counted := by
  rcases h with heq | ⟨_, ⟨_, hfailed⟩, _⟩
  · exact heq
  · cases hfailed

/-- What was counted before stays counted. -/
theorem CountedUpToLast.add {turns : List Turn} {result : Except Halt Unit} {whole counted : Nat}
    (h : CountedUpToLast turns result whole counted) (before : Nat) :
    CountedUpToLast turns result (before + whole) (before + counted) := by
  rcases h with heq | ⟨hmissing, hfailed⟩
  · left
    omega
  · exact .inr ⟨by omega, hfailed⟩

/-- A turn from which nothing is missing may come before. -/
theorem CountedUpToLast.cons (turn : Turn) {rest : List Turn} {result : Except Halt Unit}
    {whole counted whole' counted' : Nat} (hfirst : whole = counted)
    (h : CountedUpToLast rest result whole' counted') :
    CountedUpToLast (turn :: rest) result (whole + whole') (counted + counted') := by
  rcases h with heq | ⟨hmissing, hfailed, before, line, text, own, hlast⟩
  · left
    omega
  · refine .inr ⟨by omega, hfailed, turn :: before, line, text, own, ?_⟩
    rw [hlast, List.cons_append]

namespace Runner

variable {β σ : Type} {r : Runner β σ}

variable (r) in
/-- The turns that carrying out lines takes, one for each line that is read. -/
inductive InTurns : RunState β σ → List Turn → Except Halt Unit → RunState β σ → Prop
  /-- No line is left. -/
  | nil {s} : InTurns s [] (.ok ()) s
  /-- The script stops in a turn. -/
  | stopped {s line events halt s'} (h : r.Carried line s events (.error halt) s') :
      InTurns s [⟨line, (s.core.step line.text).1, events⟩] (.error halt) s'
  /-- A turn is over, and the script goes on. -/
  | cons {s line events rest result s' s''} (h : r.Carried line s events (.ok ()) s')
      (hrest : InTurns s' rest result s'') :
      InTurns s (⟨line, (s.core.step line.text).1, events⟩ :: rest) result s''

/-- Lines in turn take a turn each, up to the one that stops the script. -/
theorem Performed.inTurns {s s' : RunState β σ} {lines : List Line} {events : List Event}
    {result : Except Halt Unit} (h : r.Performed s lines events result s') :
    ∃ turns unread, r.InTurns s turns result s' ∧ lines = turns.map Turn.line ++ unread ∧
      events = eventsOf turns ∧ (result = .ok () → unread = []) := by
  induction h with
  | nil => exact ⟨[], [], .nil, rfl, rfl, fun _ => rfl⟩
  | @stopped s line rest events halt s' hline =>
    exact ⟨_, rest, .stopped hline, rfl, (List.append_nil events).symm, nofun⟩
  | @cons s line rest events events' result s₁ s₂ hline _ ih =>
    obtain ⟨turns, unread, hturns, hlines, hevents, hall⟩ := ih
    refine ⟨_, unread, .cons hline hturns, ?_, ?_, hall⟩
    · rw [hlines, List.map_cons, List.cons_append]
    · rw [hevents, eventsOf_cons]

/-- A drain starts nothing and sends nothing, and counts the lines of output that it has
written. One that it cannot write is missing. -/
theorem Drained.accounted {child left : Nat} {books books' : Books} {events : List Event}
    {result : Except Halt Unit} (h : r.Drained child left books events result books') :
    startedIn events = [] ∧ takenIn events = [] ∧
      books'.report.echoed = books.report.echoed + (echoesIn events).length ∧
      ((outputsIn events).length = (echoesIn events).length ∨
        (outputsIn events).length = (echoesIn events).length + 1 ∧
          ∃ error, result = .error (.failed error)) := by
  induction h with
  | exhausted => exact ⟨rfl, rfl, rfl, .inl rfl⟩
  | @quiet left books outcome failure hquiet =>
    cases outcome with
    | line output => exact absurd rfl (hquiet output)
    | timeout => exact ⟨rfl, rfl, rfl, .inl rfl⟩
    | endOfStream => exact ⟨rfl, rfl, rfl, .inl rfl⟩
  | unwritten => exact ⟨rfl, rfl, rfl, .inr ⟨rfl, _, rfl⟩⟩
  | @exited left books output failure =>
    have hechoes : echoesIn [.poll child r.pollTimeout (.line output),
        .write (echoLine output) none, .hasExited child true, .flush failure] =
        [echoLine output] := echoesIn_echoLine output _
    rw [hechoes]
    exact ⟨rfl, rfl, rfl, .inl rfl⟩
  | @more left books output events result books' _ ih =>
    obtain ⟨hstarted, htaken, hechoed, hmissing⟩ := ih
    have hechoes : echoesIn (.poll child r.pollTimeout (.line output) ::
        .write (echoLine output) none :: .hasExited child false :: events) =
        echoLine output :: echoesIn events := echoesIn_echoLine output _
    have houtputs : outputsIn (.poll child r.pollTimeout (.line output) ::
        .write (echoLine output) none :: .hasExited child false :: events) =
        output :: outputsIn events := rfl
    have hcounted : books.countEchoed.report.echoed = books.report.echoed + 1 := rfl
    rw [hechoes, houtputs, List.length_cons, List.length_cons]
    refine ⟨hstarted, htaken, by omega, ?_⟩
    rcases hmissing with hall | ⟨hone, hfailed⟩
    · left
      omega
    · exact .inr ⟨by omega, hfailed⟩

/-- The end of a child and a start count as no more than that start. -/
theorem Ended.start_uncounted {child : Option Nat} {events : List Event} {failure : Option Fault}
    (h : Ended child events failure) (next : Nat) (env : Environment) (failure' : Option Fault) :
    startedIn (events ++ [.start next env failure']) =
        (Event.start next env failure').started?.toList ∧
      takenIn (events ++ [.start next env failure']) = [] ∧
      outputsIn (events ++ [.start next env failure']) = [] ∧
      echoesIn (events ++ [.start next env failure']) = [] := by
  obtain ⟨hstarted, htaken, houtputs, hechoes⟩ := ending_uncounted h.isEnding
  refine ⟨?_, ?_, ?_, ?_⟩
  · rw [startedIn_concat, hstarted, List.nil_append]
  · rw [takenIn_append, htaken]
    rfl
  · rw [outputsIn_append, houtputs]
    rfl
  · rw [echoesIn_append, hechoes]
    rfl

/-- A command that is not about a text raises the counters by what its turn shows, and has
nothing to do with texts and output. -/
theorem Executed.accounted_textless {line : Line} {command : Command} {books books' : Books}
    {events : List Event} {result : Except Halt Unit} {before : Report}
    (hlines : books.report = { before with lines := before.lines + 1 })
    (htext : command.text? = none) (h : r.Executed line command books events result books') :
    Accounted books.child [⟨line, command, events⟩] events before books'.report ∧
      takenIn events = [] ∧ outputsIn events = [] ∧ echoesIn events = [] := by
  have hunserved : unservedIn books.child [⟨line, command, events⟩] = [] := by
    simp only [unservedIn, htext, Option.toList_none, ite_self, List.append_nil]
  have hskip (on : Bool) : isEchoLine (skipLine on) = false := by cases on <;> decide
  have hdelay (duration : Duration) : isEchoLine (delayLine duration) = false := by
    have hshown (seconds : String) : isEchoLine ("D: " ++ seconds ++ "\n") = false := by
      simp [isEchoLine, String.toList_append, List.isPrefixOf]
    exact hshown _
  cases h with
  | nothing => exact ⟨.of_eq (by rw [hunserved, hlines]; rfl), rfl, rfl, rfl⟩
  | @skipMode on books failure =>
    have hechoes : echoesIn [.write (skipLine on) failure] = [] :=
      echoesIn_otherLine (hskip on) failure []
    exact ⟨.of_eq (by rw [hunserved, hlines, hechoes]; rfl), rfl, rfl, hechoes⟩
  | unended hended =>
    obtain ⟨hstarted, htaken, houtputs, hechoes⟩ := ending_uncounted hended.isEnding
    refine ⟨.of_eq ?_, htaken, houtputs, hechoes⟩
    rw [hunserved, hstarted, htaken, hechoes, Books.endChild, hlines]
    rfl
  | @unstarted env books events fault hended =>
    obtain ⟨hstarted, htaken, houtputs, hechoes⟩ :=
      hended.start_uncounted books.started env (some fault)
    refine ⟨.of_eq ?_, htaken, houtputs, hechoes⟩
    rw [hunserved, hstarted, htaken, hechoes, Books.endChild, hlines]
    rfl
  | @restarted env books events hended =>
    obtain ⟨hstarted, htaken, houtputs, hechoes⟩ := hended.start_uncounted books.started env none
    refine ⟨.of_eq ?_, htaken, houtputs, hechoes⟩
    rw [hunserved, hstarted, htaken, hechoes, Books.startChild, hlines]
    rfl
  | dropped => cases htext
  | unwritten => cases htext
  | unflushed => cases htext
  | refused => cases htext
  | sent => cases htext
  | unannounced => exact ⟨.of_eq (by rw [hunserved, hlines]; rfl), rfl, rfl, rfl⟩
  | @unshown duration books fault =>
    have hechoes : echoesIn [.write (delayLine duration) none, .flush (some fault)] = [] :=
      echoesIn_otherLine (hdelay duration) none _
    exact ⟨.of_eq (by rw [hunserved, hlines, hechoes]; rfl), rfl, rfl, hechoes⟩
  | @slept duration books =>
    have hechoes : echoesIn [.write (delayLine duration) none, .flush none, .sleep duration] = [] :=
      echoesIn_otherLine (hdelay duration) none _
    exact ⟨.of_eq (by rw [hunserved, hlines, hechoes]; rfl), rfl, rfl, hechoes⟩
  | malformed =>
    refine ⟨.of_eq ?_, rfl, rfl, rfl⟩
    rw [hunserved, Books.countWarning, hlines]
    rfl

/-- A text raises the counters by what its turn shows. It is missing itself if it cannot be
handed out, and a line of output is missing that cannot be written. -/
theorem Executed.accounted_text {line : Line} {text : String} {books books' : Books}
    {events : List Event} {result : Except Halt Unit} {before : Report}
    (hlines : books.report = { before with lines := before.lines + 1 })
    (h : r.Executed line (.send text) books events result books') :
    Accounted books.child [⟨line, .send text, events⟩] events before books'.report ∧
      CountedUpToLast [⟨line, .send text, events⟩] result 1
        ((takenIn events).length + (unservedIn books.child [⟨line, .send text, events⟩]).length) ∧
      CountedUpToLast [⟨line, .send text, events⟩] result (outputsIn events).length
        (echoesIn events).length := by
  have hsend : isEchoLine (sendLine text) = false := by
    simp [isEchoLine, sendLine, String.toList_append, List.isPrefixOf]
  have hserved (child : Nat) : unservedIn (some child) [⟨line, .send text, events⟩] = [] := rfl
  cases h with
  | dropped hchild =>
    rw [hchild]
    exact ⟨.of_eq (by rw [Books.countDropped, hlines]; rfl), .inl rfl, .inl rfl⟩
  | @unwritten text books child fault hchild =>
    rw [hchild]
    exact ⟨.of_eq (by rw [hlines]; rfl), .inr ⟨rfl, ⟨_, rfl⟩, [], _, _, _, rfl⟩, .inl rfl⟩
  | @unflushed text books child fault hchild =>
    have hechoes : echoesIn [.write (sendLine text) none, .flush (some fault)] = [] :=
      echoesIn_otherLine hsend none _
    rw [hchild, hserved, hechoes]
    refine ⟨.of_eq ?_, .inr ⟨rfl, ⟨_, rfl⟩, [], _, _, _, rfl⟩, .inl rfl⟩
    rw [hserved, hechoes, hlines]
    rfl
  | @refused text books child fault hchild =>
    have hechoes : echoesIn [.write (sendLine text) none, .flush none,
        .send child text (some fault)] = [] :=
      echoesIn_otherLine hsend none _
    rw [hchild, hserved, hechoes]
    refine ⟨.of_eq ?_, .inr ⟨rfl, ⟨_, rfl⟩, [], _, _, _, rfl⟩, .inl rfl⟩
    rw [hserved, hechoes, hlines]
    rfl
  | @sent text books child events result books' hchild hdrained =>
    obtain ⟨hstarted, htaken, hechoed, hmissing⟩ := hdrained.accounted
    have hechoes : echoesIn (.write (sendLine text) none :: .flush none ::
        .send child text none :: events) = echoesIn events :=
      echoesIn_otherLine hsend none _
    have hstarts : startedIn (.write (sendLine text) none :: .flush none ::
        .send child text none :: events) = startedIn events := rfl
    have htexts : takenIn (.write (sendLine text) none :: .flush none ::
        .send child text none :: events) = text :: takenIn events := rfl
    have hcounted : books'.report =
        { books.countSent.report with echoed := books'.report.echoed } := by
      rw [hdrained.books_eq]
    rw [hchild, hserved, hechoes, htexts, htaken]
    refine ⟨.of_eq ?_, .inl rfl, ?_⟩
    · rw [hserved, hechoes, hstarts, htexts, hstarted, htaken, hcounted, hechoed, Books.countSent,
        hlines]
      rfl
    · rcases hmissing with hall | ⟨hone, hfailed⟩
      · exact .inl hall
      · exact .inr ⟨hone, hfailed, [], _, _, _, rfl⟩

/-- A line raises the counters by what its turn shows, and misses at most its text and one
line of output. -/
theorem Carried.accounted {line : Line} {s s' : RunState β σ} {events : List Event}
    {result : Except Halt Unit} (h : r.Carried line s events result s') :
    Accounted s.child [⟨line, (s.core.step line.text).1, events⟩] events s.report s'.report ∧
      CountedUpToLast [⟨line, (s.core.step line.text).1, events⟩] result
        (textsOf [⟨line, (s.core.step line.text).1, events⟩]).length
        ((takenIn events).length +
          (unservedIn s.child [⟨line, (s.core.step line.text).1, events⟩]).length) ∧
      CountedUpToLast [⟨line, (s.core.step line.text).1, events⟩] result
        (outputsIn events).length (echoesIn events).length := by
  have hrule := h.rule
  have hlines : (s.books.readLine line.text).report =
      { s.report with lines := s.report.lines + 1 } := rfl
  cases hcommand : (s.core.step line.text).1 with
  | send text =>
    rw [hcommand] at hrule
    exact hrule.accounted_text hlines
  | _ =>
    rw [hcommand] at hrule
    obtain ⟨haccounted, htaken, houtputs, hechoes⟩ := hrule.accounted_textless hlines rfl
    refine ⟨haccounted, .inl ?_, .inl ?_⟩
    · rw [htaken]
      simp only [textsOf, unservedIn, Command.text?, Option.toList_none, ite_self,
        List.filterMap_cons, List.filterMap_nil, List.append_nil, List.length_nil, Nat.add_zero]
    · rw [houtputs, hechoes]

/-- Turns raise the counters by what they show, and miss at most the text and at most one
line of output of the last of them. -/
theorem InTurns.accounted {s s' : RunState β σ} {turns : List Turn} {result : Except Halt Unit}
    (h : r.InTurns s turns result s') :
    Accounted s.child turns (eventsOf turns) s.report s'.report ∧
      CountedUpToLast turns result (textsOf turns).length
        ((takenIn (eventsOf turns)).length + (unservedIn s.child turns).length) ∧
      CountedUpToLast turns result (outputsIn (eventsOf turns)).length
        (echoesIn (eventsOf turns)).length := by
  induction h with
  | nil => exact ⟨⟨rfl, rfl, rfl, rfl, rfl, rfl⟩, .inl rfl, .inl rfl⟩
  | stopped hline =>
    rw [eventsOf_singleton]
    exact hline.accounted
  | @cons s line events rest result s₁ s₂ hline _ ih =>
    obtain ⟨hfirst, htexts, houtputs⟩ := hline.accounted
    obtain ⟨hrest, hresttexts, hrestoutputs⟩ := ih
    have hlive : s₁.child = liveAfter s.child events := hline.rule.keeps.child_eq
    rw [hlive] at hrest hresttexts
    refine ⟨hfirst.cons hrest, ?_, ?_⟩
    · have htextsOf (turn : Turn) : (textsOf (turn :: rest)).length =
          (textsOf [turn]).length + (textsOf rest).length := by
        rw [← List.length_append, textsOf, textsOf, textsOf, ← List.filterMap_append,
          List.singleton_append]
      have hall := hresttexts.cons ⟨line, (s.core.step line.text).1, events⟩ htexts.eq
      rw [htextsOf, eventsOf_cons, takenIn_append, unservedIn, List.length_append,
        List.length_append]
      simp only [unservedIn, List.append_nil] at hall
      rw [Nat.add_add_add_comm]
      exact hall
    · rw [eventsOf_cons, outputsIn_append, echoesIn_append, List.length_append, List.length_append]
      exact hrestoutputs.cons _ houtputs.eq

/-- The report of a finished run is what was counted. -/
theorem Ran.report_eq {script : Script} {s : RunState β σ} {books' : Books}
    {events : List Event} {report : Report}
    (h : r.Ran script s events (.finished report) books') : report = books'.report := by
  cases h
  rfl

/-- Whatever the host and the sink do, every counter of a run grows by the number of lines,
events or commands that it stands for. A run that is finished has read every line, and has
counted each text as sent or dropped and each line of output as an echo; any other one has
missed at most the text and at most one line of output of the line that failed. All the
time no more is counted than lines were read. -/
theorem run_accounts (r : Runner β σ) (script : Script) {s s' : RunState β σ}
    {outcome : Outcome} (h : r.run script s = (outcome, s')) :
    ∃ turns unread closing result s₁, script.lines = turns.map Turn.line ++ unread ∧
      r.InTurns s turns result s₁ ∧
      s'.events = s.events ++ (eventsOf turns ++ closing) ∧
      (∀ event ∈ closing, event.isEnding = true) ∧
      Accounted s.child turns (eventsOf turns ++ closing) s.report s'.report ∧
      CountedUpToLast turns result
        (s.report.sent + s.report.dropped + (textsOf turns).length)
        (s'.report.sent + s'.report.dropped) ∧
      CountedUpToLast turns result
        (s.report.echoed + (outputsIn (eventsOf turns ++ closing)).length) s'.report.echoed ∧
      (∀ error, result = .error (.failed error) → outcome = .failed error) ∧
      (∀ report, outcome = .finished report → unread = [] ∧ report = s'.report ∧
        report.sent + report.dropped =
          s.report.sent + s.report.dropped + (textsOf turns).length ∧
        report.echoed = s.report.echoed + (outputsIn (eventsOf turns ++ closing)).length) ∧
      (s.report.Balanced → Throughout Report.Balanced (r.runScript script) s ∧
        (∀ stopped t, (r.runScript script).run.run s = (stopped, t) →
          Throughout Report.Balanced (r.conclude stopped) t) ∧
        s'.report.Balanced) := by
  obtain ⟨events, hevents, _, hran⟩ := ran_of_run h
  obtain ⟨work, result, s₁, closing, hlines, rfl, hclosing, hreport, hfailed, hfinished⟩ :=
    hran.ending
  have hcounted : s'.report = s₁.report := hreport
  obtain ⟨turns, unread, hturns, hscript, rfl, hread⟩ := hlines.inTurns
  obtain ⟨haccounted, htexts, houtputs⟩ := hturns.accounted
  rw [← hcounted] at haccounted
  obtain ⟨_, _, hquiet, _⟩ := ending_uncounted hclosing
  have hsent : CountedUpToLast turns result
      (s.report.sent + s.report.dropped + (textsOf turns).length)
      (s'.report.sent + s'.report.dropped) := by
    rw [haccounted.sent, haccounted.dropped, Nat.add_add_add_comm]
    exact htexts.add _
  have hechoed : CountedUpToLast turns result
      (s.report.echoed + (outputsIn (eventsOf turns ++ closing)).length) s'.report.echoed := by
    rw [outputsIn_append, hquiet, List.append_nil, haccounted.echoed]
    exact houtputs.add _
  refine ⟨turns, unread, closing, result, s₁, hscript, hturns, hevents, hclosing,
    haccounted.append_ending hclosing, hsent, hechoed, hfailed, ?_, ?_⟩
  · rintro report rfl
    have hresult : result = .ok () := hfinished report rfl
    have hsame : report = s'.report := hran.report_eq
    subst hresult
    rw [hsame]
    exact ⟨hread rfl, rfl, hsent.eq.symm, hechoed.eq.symm⟩
  · intro hbalanced
    have hrun := r.run_balanced script hbalanced
    rw [h] at hrun
    exact hrun

/-- A script with a text without a child and a directive that is passed over. -/
def earlyAndUnusable : Script :=
  ⟨"/", [⟨1, "early"⟩, ⟨2, "DELAY soon"⟩, ⟨3, "RESTART"⟩, ⟨4, "a"⟩, ⟨5, "b"⟩], none⟩

/-- A child that answers one text and does not take the next one. -/
def takesOneText : List ChildPlan :=
  [{ replies := [[.line " x "]], sendFailure := some (1, Fault.brokenPipe) }]

/-- The text of the last line, which the child does not take, is the one that is missing. -/
theorem run_accounts_of_refused_text :
    ∃ s, ∃ turns : List Turn, ∃ result,
      planned.run earlyAndUnusable (.planned takesOneText) =
        (.failed (.write 5 "b" Fault.brokenPipe), s) ∧
      s.report = ⟨5, 1, 1, 1, 1, 1⟩ ∧ turns.length = 5 ∧
      Accounted none turns s.events {} s.report ∧
      CountedUpToLast turns result (textsOf turns).length 2 ∧ s.report.Balanced := by
  have hrun : (planned.run earlyAndUnusable (.planned takesOneText)).1 =
        .failed (.write 5 "b" Fault.brokenPipe) ∧
      (planned.run earlyAndUnusable (.planned takesOneText)).2.report = ⟨5, 1, 1, 1, 1, 1⟩ := by
    decide +kernel
  obtain ⟨hfailed, hreport⟩ := hrun
  obtain ⟨s, hs⟩ := run_eq_of_fst hfailed
  rw [hs] at hreport
  obtain ⟨turns, _, _, result, _, _, _, hevents, _, haccounted, htexts, _, _, _, hbalanced⟩ :=
    run_accounts planned _ hs
  have hall : Accounted none turns s.events {} s.report := hevents ▸ haccounted
  have hlines := hall.lines
  rw [hreport] at htexts hlines
  simp only [RunState.planned, Nat.zero_add] at htexts hlines
  exact ⟨s, turns, result, hs, hreport, hlines.symm, hall, htexts, (hbalanced (by decide)).2.2⟩

end Runner

end LineScript
