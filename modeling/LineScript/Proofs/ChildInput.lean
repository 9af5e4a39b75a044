import LineScript.Host.Processes
import LineScript.Proofs.ClosedForm
import LineScript.Proofs.RawLines

/-!
# The input of a child

A text is written to the input of a child with a newline behind it, and what a child reads is
cut at newlines. Main result: the input of a child is made of the texts that it took, one line
for each, and of a part of the line that it refused, if it refused one. Cut at newlines it is
those texts, unless the directory of the script has a newline itself: the placeholder is
replaced after the script was cut into lines.
-/

namespace LineScript

/-- The bytes of a text as a line of input. -/
def inputLine (text : String) : Bytes := Utf8.ofString (text ++ "\n")

/-- What a host writes to the input of a child that is sent a text. -/
structure Host.Input {β : Type} (host : Host β) where
  /-- The bytes that are written. -/
  written : β → Nat → String → Bytes
  /-- A text that is taken is written as a line. -/
  whole : ∀ state child text, (host.send state child text).2 = none →
    written state child text = inputLine text
  /-- Of any text at most the line is written. -/
  part : ∀ state child text, written state child text <+: inputLine text

/-- The input of children that take a line at once or not at all. -/
def Host.Input.atOnce {β : Type} (host : Host β) : host.Input where
  written state child text := if (host.send state child text).2 = none then inputLine text else []
  whole _ _ _ h := if_pos h
  part _ _ _ := by
    split
    · exact List.prefix_refl _
    · exact List.nil_prefix

/-- A supervisor sends a text as a line, if the pipes are open. -/
theorem Supervision.send_eq_none {π : Type} {control : ProcessControl π} {s : Supervision}
    {process : π} {text : String} (h : (s.send control process text).2 = none) :
    s.pipesOpen = true ∧ (control.write process (inputLine text)).2 = none := by
  rw [Supervision.send] at h
  split at h
  · next hopen => exact ⟨hopen, h⟩
  · cases h

namespace ProcessState

/-- The bytes that get into a pipe when bytes are written to it, for at most so many rounds. -/
def accepted (pipe : Nat) : Nat → ProcessState → Bytes → Bytes
  | 0, _, _ => []
  | fuel + 1, s, bytes =>
    if bytes.isEmpty then []
    else
      match s.machine.write (.writer pipe) bytes with
      | .done machine count =>
        bytes.take count ++ accepted pipe fuel { s with machine } (bytes.drop count)
      | .failed _ => []
      | .unread => []
      | .blocked =>
        match s.round with
        | (s, true) => accepted pipe fuel s bytes
        | (s, false) =>
          match s.machine.nextWake with
          | none => []
          | some clock => accepted pipe fuel { s with machine := { s.machine with clock } } bytes

/-- The bytes that get into a pipe are the first of those that are written, and all of them if
writing succeeds. -/
theorem accepted_begins (pipe fuel : Nat) (s : ProcessState) (bytes : Bytes) :
    accepted pipe fuel s bytes <+: bytes ∧
      ((writeAll pipe fuel s bytes).2 = none → accepted pipe fuel s bytes = bytes) := by
  induction fuel generalizing s bytes with
  | zero => exact ⟨List.nil_prefix, nofun⟩
  | succ fuel ih =>
    rw [accepted, writeAll]
    split
    · next hempty =>
      rw [List.isEmpty_iff.mp hempty]
      exact ⟨List.nil_prefix, fun _ => rfl⟩
    · cases s.machine.write (.writer pipe) bytes with
      | done machine count =>
        obtain ⟨hbegins, hwhole⟩ := ih { s with machine } (bytes.drop count)
        refine ⟨?_, fun h => ?_⟩
        · conv => rhs; rw [← List.take_append_drop count bytes]
          exact List.prefix_append_right_inj _ |>.mpr hbegins
        · dsimp only
          rw [hwhole h, List.take_append_drop]
      | failed failure => exact ⟨List.nil_prefix, nofun⟩
      | unread => exact ⟨List.nil_prefix, nofun⟩
      | blocked =>
        rcases s.round with ⟨s', _ | _⟩
        · dsimp only
          cases s'.machine.nextWake with
          | none => exact ⟨List.nil_prefix, nofun⟩
          | some clock => exact ih _ bytes
        · exact ih s' bytes

/-- What is written to the input of a process, if its pipes are open. -/
def written (s : ProcessState) (number : Nat) (text : String) : Bytes :=
  match s.child? number with
  | none => []
  | some child =>
    if child.supervision.pipesOpen then accepted child.input patience s (inputLine text) else []

/-- Writing to a process is writing to the pipe of its input. -/
theorem control_write (child : ProcessChild) :
    (control child).write = writeAll child.input patience := rfl

/-- A child that takes a text has open pipes, and everything gets into the pipe. -/
theorem send_eq_none {s : ProcessState} {number : Nat} {text : String}
    (h : (send s number text).2 = none) :
    ∃ child, s.child? number = some child ∧ child.supervision.pipesOpen = true ∧
      (writeAll child.input patience s (inputLine text)).2 = none := by
  rw [send] at h
  cases hchild : s.child? number with
  | none =>
    rw [hchild] at h
    cases h
  | some child =>
    rw [hchild] at h
    obtain ⟨hopen, hwrite⟩ := Supervision.send_eq_none h
    rw [control_write] at hwrite
    exact ⟨child, rfl, hopen, hwrite⟩

/-- The input of processes. -/
def input (launch : Launch) : (ProcessState.host launch).Input where
  written := written
  whole s number text h := by
    obtain ⟨child, hchild, hopen, hwrite⟩ := send_eq_none h
    rw [written, hchild]
    dsimp only
    rw [if_pos hopen]
    exact (accepted_begins child.input patience s (inputLine text)).2 hwrite
  part s number text := by
    rw [written]
    cases s.child? number with
    | none => exact List.nil_prefix
    | some child =>
      dsimp only
      split
      · exact (accepted_begins child.input patience s (inputLine text)).1
      · exact List.nil_prefix

end ProcessState

/-- A line of input is its text and a newline. -/
theorem inputLine_eq (text : String) : inputLine text = Utf8.ofString text ++ [newline] := by
  have hnewline : Utf8.encode ['\n'] = [newline] := by decide
  rw [inputLine, Utf8.ofString_eq_encode, Utf8.ofString_eq_encode, String.toList_append,
    Utf8.encode_append]
  exact congrArg (_ ++ ·) hnewline

/-- Lines of input are cut into their texts, if these have no newline. -/
theorem splitOn_inputLines {texts : List String} (h : ∀ text ∈ texts, '\n' ∉ text.toList)
    (rest : Bytes) :
    (texts.flatMap inputLine ++ rest).splitOn newline =
      texts.map Utf8.ofString ++ rest.splitOn newline := by
  induction texts with
  | nil => rfl
  | cons text texts ih =>
    obtain ⟨htext, htexts⟩ := List.forall_mem_cons.mp h
    have hbytes : ∀ b ∈ Utf8.ofString text, (b == newline) = false := by
      intro b hb
      rw [Utf8.ofString_eq_encode] at hb
      exact beq_eq_false_iff_ne.mpr fun heq => Utf8.newline_not_mem_encode htext (heq ▸ hb)
    rw [List.flatMap_cons, inputLine_eq, List.append_assoc, List.append_assoc,
      List.singleton_append, List.splitOn,
      List.splitOnP_append_cons_of_forall_mem hbytes newline (beq_self_eq_true newline)]
    exact congrArg (_ :: ·) (ih htexts)

/-- The texts for a child are among those of a longer list of commands, at the begin. -/
theorem textsAfter_append (number : Nat) (first second : List Command) :
    textsAfter number first <+: textsAfter number (first ++ second) := by
  induction first generalizing number with
  | nil => cases number <;> exact List.nil_prefix
  | cons command rest ih =>
    cases number with
    | zero =>
      cases command with
      | restart env => exact List.nil_prefix
      | send text => exact (List.prefix_cons_inj text).mpr (ih 0)
      | _ => exact ih 0
    | succ number =>
      cases command with
      | restart env => exact ih number
      | _ => exact ih (number + 1)

/-- The texts for a child are texts of commands. -/
theorem mem_of_mem_textsAfter {number : Nat} {commands : List Command} {text : String}
    (h : text ∈ textsAfter number commands) : .send text ∈ commands := by
  induction commands generalizing number with
  | nil => cases number <;> cases h
  | cons command rest ih =>
    cases number with
    | zero =>
      cases command with
      | restart env => cases h
      | send first =>
        rcases List.mem_cons.mp h with rfl | hrest
        · exact List.mem_cons_self
        · exact List.mem_cons_of_mem _ (ih hrest)
      | _ => exact List.mem_cons_of_mem _ (ih h)
    | succ number =>
      cases command with
      | restart env => exact List.mem_cons_of_mem _ (ih h)
      | _ => exact List.mem_cons_of_mem _ (ih h)

/-- A text is handed out as its line has it. -/
theorem Core.send_of_step {core : Core} {line text : String}
    (h : (core.step line).1 = .send text) : text = line := by
  obtain ⟨directive, hwords, hperform⟩ := ofWords_of_step h nofun nofun nofun
  rcases Directive.ofWords_ok hwords with ⟨_, _, _, rfl, _⟩ | rfl | rfl | ⟨_, rfl, _⟩ | rfl
  · cases hperform
  · cases hperform
  · cases hperform
  · cases hperform
  · rw [← Command.send.inj hperform, String.ofList_toList]

/-- Every text of a command is a line. -/
theorem Core.mem_of_send {core : Core} {lines : List String} {text : String}
    (h : .send text ∈ core.commands lines) : text ∈ lines := by
  obtain ⟨_, line, hmem, hstep⟩ := exists_step_of_mem_commands h
  rw [send_of_step hstep]
  exact hmem

/-- The text of a send that a child takes. -/
def Event.accepted? (child : Nat) : Event → Option String
  | .send recipient text none => if recipient = child then some text else none
  | _ => none

/-- The text of a send that a child refuses. -/
def Event.refused? (child : Nat) : Event → Option String
  | .send recipient text (some _) => if recipient = child then some text else none
  | _ => none

/-- The texts that a child takes. -/
def acceptedBy (child : Nat) (events : List Event) : List String :=
  events.filterMap (Event.accepted? child)

/-- The texts that a child refuses. -/
def refusedBy (child : Nat) (events : List Event) : List String :=
  events.filterMap (Event.refused? child)

/-- The texts that a child takes in two lists of events. -/
theorem acceptedBy_append (child : Nat) (first second : List Event) :
    acceptedBy child (first ++ second) = acceptedBy child first ++ acceptedBy child second :=
  List.filterMap_append

/-- The texts that a child refuses in two lists of events. -/
theorem refusedBy_append (child : Nat) (first second : List Event) :
    refusedBy child (first ++ second) = refusedBy child first ++ refusedBy child second :=
  List.filterMap_append

/-- Lists of events in which a refused text is the last that is brought to a child. -/
inductive RefusedLast : List Event → Prop
  /-- Nothing is brought to any child. -/
  | quiet {events} (h : deliveries events = []) : RefusedLast events
  /-- A text is refused, and nothing is brought to any child after it. -/
  | refused {child text fault rest} (h : deliveries rest = []) :
      RefusedLast (.send child text (some fault) :: rest)
  /-- Something else happens. -/
  | other {event rest} (h : ∀ child, event.refused? child = none) (hrest : RefusedLast rest) :
      RefusedLast (event :: rest)

/-- What happens before may be anything but a refusal. -/
theorem RefusedLast.append {first second : List Event}
    (hfirst : ∀ event ∈ first, ∀ child, event.refused? child = none) (h : RefusedLast second) :
    RefusedLast (first ++ second) := by
  induction first with
  | nil => exact h
  | cons event rest ih =>
    obtain ⟨hevent, hrest⟩ := List.forall_mem_cons.mp hfirst
    exact .other hevent (ih hrest)

/-- Without a refusal there is none that is not the last. -/
theorem RefusedLast.of_none {events : List Event}
    (h : ∀ event ∈ events, ∀ child, event.refused? child = none) : RefusedLast events := by
  rw [← List.append_nil events]
  exact .append h (.quiet rfl)

/-- Events that bring nothing to a child may come at the end. -/
theorem RefusedLast.concat {first second : List Event} (h : RefusedLast first)
    (hsecond : deliveries second = []) : RefusedLast (first ++ second) := by
  induction h with
  | quiet hfirst =>
    refine .quiet ?_
    rw [deliveries_append, hfirst, hsecond]
    rfl
  | refused hrest =>
    refine .refused (?_ : deliveries (_ ++ second) = [])
    rw [deliveries_append, hrest, hsecond]
    rfl
  | other hevent _ ih => exact .other hevent ih

/-- Where nothing is brought to a child, none takes a text and none refuses one. -/
theorem eq_nil_of_deliveries {events : List Event} (h : deliveries events = []) (child : Nat) :
    acceptedBy child events = [] ∧ refusedBy child events = [] := by
  have hquiet : ∀ event ∈ events, event.accepted? child = none ∧ event.refused? child = none := by
    intro event hmem
    have hnone : event.delivery? = none := List.filterMap_eq_nil_iff.mp h event hmem
    cases event with
    | send => cases hnone
    | _ => exact ⟨rfl, rfl⟩
  exact ⟨List.filterMap_eq_nil_iff.mpr fun event hmem => (hquiet event hmem).1,
    List.filterMap_eq_nil_iff.mpr fun event hmem => (hquiet event hmem).2⟩

/-- The texts that are handed to a child are those that it takes, and one that it refuses. -/
theorem RefusedLast.texts {events : List Event} (h : RefusedLast events) (child : Nat) :
    (deliveries events).filterMap (Delivery.textFor? child) =
      acceptedBy child events ++ refusedBy child events := by
  induction h with
  | quiet hquiet =>
    obtain ⟨haccepted, hrefused⟩ := eq_nil_of_deliveries hquiet child
    rw [hquiet, haccepted, hrefused]
    rfl
  | @refused recipient text fault rest hrest =>
    obtain ⟨haccepted, hrefused⟩ := eq_nil_of_deliveries hrest child
    rw [acceptedBy, refusedBy, List.filterMap_cons, List.filterMap_cons, ← acceptedBy, ← refusedBy,
      haccepted, hrefused]
    have hall : deliveries (.send recipient text (some fault) :: rest) = [.send recipient text] :=
      congrArg (_ :: ·) hrest
    rw [hall]
    by_cases hchild : recipient = child <;>
      simp [Delivery.textFor?, Event.accepted?, Event.refused?, hchild]
  | @other event rest hevent _ ih =>
    rw [acceptedBy, refusedBy, List.filterMap_cons_none (hevent child), ← refusedBy]
    cases event with
    | send recipient text failure =>
      cases failure with
      | some fault => exact absurd (hevent recipient) (by simp [Event.refused?])
      | none =>
        have hall : deliveries (.send recipient text none :: rest) =
            .send recipient text :: deliveries rest := rfl
        rw [hall, List.filterMap_cons, List.filterMap_cons, ih, ← acceptedBy]
        by_cases hchild : recipient = child <;>
          simp [Delivery.textFor?, Event.accepted?, hchild]
    | _ => exact ih

namespace Runner

variable {β σ : Type} {r : Runner β σ}

variable (r) in
/-- The bytes that a call writes to the input of a child. -/
def writtenBy (input : r.host.Input) (child : Nat) (p : Parties β σ) : Event → Bytes
  | .send recipient text _ => if recipient = child then input.written p.host recipient text else []
  | _ => []

variable (r) in
/-- The bytes that calls in turn write to the input of a child. -/
def inputOf (input : r.host.Input) (child : Nat) (p : Parties β σ) : List Event → Bytes
  | [] => []
  | event :: rest => r.writtenBy input child p event ++ inputOf input child (r.after p event) rest

/-- Without deliveries nothing is written to the input of a child. -/
theorem inputOf_eq_nil {events : List Event} (h : deliveries events = []) (input : r.host.Input)
    (child : Nat) (p : Parties β σ) : r.inputOf input child p events = [] := by
  induction events generalizing p with
  | nil => rfl
  | cons event rest ih =>
    cases event with
    | start => cases h
    | send => cases h
    | _ => exact ih h _

/-- The input of a child is made of the lines that it takes and of a part of one that it
refuses. -/
theorem inputOf_eq {events : List Event} (h : RefusedLast events) (input : r.host.Input)
    (child : Nat) {p q : Parties β σ} (htalk : r.Conversation p events q) :
    ∃ part, part <+: (refusedBy child events).flatMap inputLine ∧
      r.inputOf input child p events = (acceptedBy child events).flatMap inputLine ++ part := by
  induction h generalizing p with
  | quiet hquiet =>
    obtain ⟨haccepted, hrefused⟩ := eq_nil_of_deliveries hquiet child
    rw [inputOf_eq_nil hquiet, haccepted, hrefused]
    exact ⟨[], List.nil_prefix, rfl⟩
  | @refused recipient text fault rest hrest =>
    obtain ⟨haccepted, hrefused⟩ := eq_nil_of_deliveries hrest child
    rw [inputOf, inputOf_eq_nil hrest, List.append_nil, acceptedBy, refusedBy, List.filterMap_cons,
      List.filterMap_cons, ← acceptedBy, ← refusedBy, haccepted, hrefused]
    by_cases hchild : recipient = child
    · refine ⟨input.written p.host recipient text, ?_, ?_⟩
      · simpa [Event.refused?, hchild] using input.part p.host child text
      · simp [Event.accepted?, writtenBy, hchild]
    · refine ⟨[], List.nil_prefix, ?_⟩
      simp [Event.accepted?, writtenBy, hchild]
  | @other event rest hevent _ ih =>
    obtain ⟨hanswer, hlater⟩ := htalk
    obtain ⟨part, hpart, hinput⟩ := ih hlater
    rw [acceptedBy, refusedBy, List.filterMap_cons_none (hevent child), ← refusedBy, inputOf,
      hinput]
    refine ⟨part, hpart, ?_⟩
    cases event with
    | send recipient text failure =>
      cases failure with
      | some fault => exact absurd (hevent recipient) (by simp [Event.refused?])
      | none =>
        by_cases hchild : recipient = child
        · have hline : input.written p.host recipient text = inputLine text :=
            input.whole p.host recipient text hanswer
          simp [writtenBy, acceptedBy, Event.accepted?, hchild, ← hline]
        · simp [writtenBy, acceptedBy, Event.accepted?, hchild]
    | _ => rfl

/-- A drain sends nothing. -/
theorem Drained.refused_eq_none {child left : Nat} {books books' : Books} {events : List Event}
    {result : Except Halt Unit} (h : r.Drained child left books events result books') :
    ∀ event ∈ events, ∀ recipient, event.refused? recipient = none := by
  induction h with
  | more _ ih => simpa [Event.refused?] using ih
  | _ => simp [Event.refused?]

/-- Ending a child sends nothing. -/
theorem Ended.refused_eq_none {child : Option Nat} {events : List Event} {failure : Option Fault}
    (h : Ended child events failure) :
    ∀ event ∈ events, ∀ recipient, event.refused? recipient = none := by
  cases h with
  | absent => exact List.forall_mem_nil _
  | @called child answer =>
    obtain ⟨failure, killedAfter⟩ := answer
    cases killedAfter <;> simp [Event.ending, Event.refused?]

/-- A command in which a text is refused fails, and does nothing after that. -/
theorem Executed.refusal {line : Line} {command : Command} {books books' : Books}
    {events : List Event} {result : Except Halt Unit}
    (h : r.Executed line command books events result books') :
    (∀ event ∈ events, ∀ recipient, event.refused? recipient = none) ∨
      RefusedLast events ∧ ∃ halt, result = .error halt := by
  cases h with
  | unended hended => exact .inl hended.refused_eq_none
  | unstarted hended =>
    exact .inl (List.forall_mem_append.mpr ⟨hended.refused_eq_none, by simp [Event.refused?]⟩)
  | restarted hended =>
    exact .inl (List.forall_mem_append.mpr ⟨hended.refused_eq_none, by simp [Event.refused?]⟩)
  | refused hchild =>
    refine .inr ⟨.other (fun _ => rfl) (.other (fun _ => rfl) (.refused rfl)), _, rfl⟩
  | sent hchild hdrained =>
    left
    simpa [Event.refused?] using hdrained.refused_eq_none
  | _ => exact .inl (by simp [Event.refused?])

/-- Lines in which a text is refused stop there. -/
theorem Performed.refusal {s s' : RunState β σ} {lines : List Line} {events : List Event}
    {result : Except Halt Unit} (h : r.Performed s lines events result s') :
    RefusedLast events ∧ (result = .ok () →
      ∀ event ∈ events, ∀ recipient, event.refused? recipient = none) := by
  induction h with
  | nil => exact ⟨.quiet rfl, fun _ => List.forall_mem_nil _⟩
  | stopped hline =>
    refine ⟨?_, nofun⟩
    rcases hline.rule.refusal with hnone | ⟨hlast, _⟩
    · exact .of_none hnone
    · exact hlast
  | cons hline _ ih =>
    obtain ⟨hrest, hnone⟩ := ih
    rcases hline.rule.refusal with hown | ⟨_, _, herror⟩
    · exact ⟨hrest.append hown, fun hok => List.forall_mem_append.mpr ⟨hown, hnone hok⟩⟩
    · cases herror

/-- The texts that are handed to a child are those for it, as far as the script is carried out,
and all of them if it is carried out. -/
theorem Performed.texts {s s' : RunState β σ} {lines : List Line} {events : List Event}
    {result : Except Halt Unit} (h : r.Performed s lines events result s')
    (hcurrent : s.child = latest s.started) (hfresh : s.started = 0) (child : Nat) :
    acceptedBy child events ++ refusedBy child events <+:
        textsAfter (child + 1) (s.core.commands (lines.map Line.text)) ∧
      (result = .ok () → refusedBy child events = [] ∧
        acceptedBy child events =
          textsAfter (child + 1) (s.core.commands (lines.map Line.text))) := by
  obtain ⟨hlast, hnone⟩ := h.refusal
  rw [← hlast.texts child]
  cases result with
  | ok =>
    have hrefused : refusedBy child events = [] :=
      List.filterMap_eq_nil_iff.mpr fun event hmem => hnone rfl event hmem child
    have htexts := hlast.texts child
    rw [hrefused, List.append_nil] at htexts
    have hall : (deliveries events).filterMap (Delivery.textFor? child) =
        textsAfter (child + 1) (s.core.commands (lines.map Line.text)) := by
      rw [(h.delivers hcurrent).1, hfresh, texts_scheduled, if_pos (Nat.zero_le _), Nat.sub_zero]
    exact ⟨hall ▸ List.prefix_refl _, fun _ => ⟨hrefused, htexts ▸ hall⟩⟩
  | error halt =>
    refine ⟨?_, nofun⟩
    obtain ⟨before, line, after, served, _, hsplit, _, _, hserved, hdelivered⟩ :=
      h.delivers_stop hcurrent
    have hunserved : ∃ unserved, lines = served ++ unserved := by
      rcases hserved with rfl | rfl
      · exact ⟨line :: after, hsplit⟩
      · exact ⟨after, hsplit.trans (List.append_cons before line after)⟩
    obtain ⟨unserved, hlines⟩ := hunserved
    rw [hdelivered, hfresh, texts_scheduled, if_pos (Nat.zero_le _), Nat.sub_zero, hlines,
      List.map_append, Core.commands_append]
    exact textsAfter_append _ _ _

/-- Once the work on the lines is over no child takes a text and none refuses one. -/
theorem Worked.texts {script : Script} {s s₁ : RunState β σ} {events work : List Event}
    {outcome : Outcome} {books' : Books} {result : Except Halt Unit}
    (h : r.Worked script s events outcome books' work result s₁) (child : Nat) :
    acceptedBy child events = acceptedBy child work ∧
      refusedBy child events = refusedBy child work ∧ RefusedLast events := by
  obtain ⟨closing, rfl, hquiet⟩ := h.closing
  obtain ⟨haccepted, hrefused⟩ := eq_nil_of_deliveries hquiet child
  rw [acceptedBy_append, refusedBy_append, haccepted, hrefused, List.append_nil, List.append_nil]
  exact ⟨rfl, rfl, h.performed.refusal.1.concat hquiet⟩

/-- A text for a child has a newline only if the directory of the script has one. -/
theorem newline_of_mem_textsAfter {baseDir : String} {source : Source} {core : Core}
    {number : Nat} {text : String}
    (h : text ∈ textsAfter number
      (core.commands ((Script.read baseDir source).lines.map Line.text)))
    (hmem : '\n' ∈ text.toList) : '\n' ∈ baseDir.toList := by
  obtain ⟨line, hline, rfl⟩ := List.mem_map.mp (Core.mem_of_send (mem_of_mem_textsAfter h))
  exact Script.newline_of_mem_read hline hmem

/-- Whether the bytes that a child got are lines of input, given the directory of the script and
the texts that its commands have for the child. -/
structure FedByLines (baseDir : String) (texts : List String) (child : Nat) (events : List Event)
    (bytes : Bytes) : Prop where
  /-- What the child takes or refuses are the texts for it, in order. -/
  inOrder : acceptedBy child events ++ refusedBy child events <+: texts
  /-- A text has a newline only if the directory has one. -/
  fromDirectory : ∀ text ∈ texts, '\n' ∈ text.toList → '\n' ∈ baseDir.toList
  /-- The child gets a line for each text that it takes, and a part of one that it refuses. Cut at
  newlines these are the texts that it takes, if the directory has no newline. -/
  lines : ∃ part, part <+: (refusedBy child events).flatMap inputLine ∧
    bytes = (acceptedBy child events).flatMap inputLine ++ part ∧
    ('\n' ∉ baseDir.toList →
      bytes.splitOn newline = (acceptedBy child events).map Utf8.ofString ++ part.splitOn newline)

/-- In a fresh run of any script every child is fed by lines, one for each text that it takes; and
if the run is finished it takes every text that the commands have for it. -/
theorem run_feeds (r : Runner β σ) (input : r.host.Input) (baseDir : String) (source : Source)
    {core : Core} {host : β} {sink : σ} {outcome : Outcome} {s : RunState β σ}
    (h : r.run (Script.read baseDir source) { core, host, sink } = (outcome, s)) (child : Nat) :
    FedByLines baseDir
        (textsAfter (child + 1)
          (core.commands ((Script.read baseDir source).lines.map Line.text)))
        child s.events (r.inputOf input child ⟨host, sink⟩ s.events) ∧
      ∀ report, outcome = .finished report →
        refusedBy child s.events = [] ∧
          acceptedBy child s.events =
            textsAfter (child + 1)
              (core.commands ((Script.read baseDir source).lines.map Line.text)) := by
  obtain ⟨events, hevents, htalk, hran⟩ := ran_of_run h
  have hall : s.events = events := hevents
  rw [hall]
  obtain ⟨work, result, s₁, hworked⟩ := hran.worked
  obtain ⟨haccepted, hrefused, hlast⟩ := hworked.texts child
  obtain ⟨hinOrder, hdone⟩ := hworked.performed.texts rfl rfl child
  rw [← haccepted, ← hrefused] at hinOrder hdone
  obtain ⟨part, hpart, hinput⟩ := inputOf_eq (p := ⟨host, sink⟩) hlast input child htalk
  refine ⟨⟨hinOrder, fun _ => newline_of_mem_textsAfter, part, hpart, hinput, fun hplain => ?_⟩,
    fun report hfinished => hdone (hworked.finished report hfinished)⟩
  rw [hinput]
  refine splitOn_inputLines (fun text hmem hnewline => ?_) part
  have htaken : text ∈ acceptedBy child events ++ refusedBy child events :=
    List.mem_append_left _ hmem
  exact hplain (newline_of_mem_textsAfter (hinOrder.subset htaken) hnewline)

/-- The text of a script whose first text for its child has a placeholder. -/
def threeTextsAt : String := "RESTART\nat $SD\nb\nc\n"

/-- A child that takes one text. -/
def closedAfterOne : List ChildPlan := [{ sendFailure := some (1, .brokenPipe) }]

/-- A child that takes one text and refuses the next, so that the script stops. -/
theorem run_feeds_until_refused :
    ∃ s, planned.run (.ofText "/d" threeTextsAt) (.planned closedAfterOne) =
        (.failed (.write 3 "b" .brokenPipe), s) ∧
      acceptedBy 0 s.events = ["at /d"] ∧ refusedBy 0 s.events = ["b"] ∧
      FedByLines "/d" ["at /d", "b", "c"] 0 s.events
        (planned.inputOf (.atOnce planned.host) 0 ⟨{ coming := closedAfterOne }, {}⟩ s.events) := by
  have hrun : (planned.run (.ofText "/d" threeTextsAt) (.planned closedAfterOne)).1 =
        .failed (.write 3 "b" .brokenPipe) ∧
      acceptedBy 0 (planned.run (.ofText "/d" threeTextsAt) (.planned closedAfterOne)).2.events =
        ["at /d"] ∧
      refusedBy 0 (planned.run (.ofText "/d" threeTextsAt) (.planned closedAfterOne)).2.events =
        ["b"] ∧
      textsAfter 1 (Core.commands {} ((Script.ofText "/d" threeTextsAt).lines.map Line.text)) =
        ["at /d", "b", "c"] := by
    decide +kernel
  obtain ⟨hfailed, haccepted, hrefused, htexts⟩ := hrun
  obtain ⟨s, hs⟩ := run_eq_of_fst hfailed
  rw [hs] at haccepted hrefused
  obtain ⟨hfed, _⟩ := run_feeds planned (.atOnce planned.host) "/d" _ hs 0
  rw [← Script.ofText, htexts] at hfed
  exact ⟨s, hs, haccepted, hrefused, hfed⟩

/-- A script with a placeholder, in a directory whose name has a newline. -/
def inTwoLineDirectory : Script := Script.ofText "/a\nb" "RESTART\nat $SD\n"

/-- In a directory whose name has a newline one text is two lines of input. -/
theorem run_feeds_two_lines :
    ∃ s, planned.run inTwoLineDirectory (.planned [{}]) =
        (.finished { lines := 2, restarts := 1, sent := 1 }, s) ∧
      acceptedBy 0 s.events = ["at /a\nb"] ∧
      (planned.inputOf (.atOnce planned.host) 0 ⟨{ coming := [{}] }, {}⟩ s.events).splitOn newline =
        [Utf8.ofString "at /a", Utf8.ofString "b", []] := by
  have hrun : (planned.run inTwoLineDirectory (.planned [{}])).1 =
        .finished { lines := 2, restarts := 1, sent := 1 } ∧
      acceptedBy 0 (planned.run inTwoLineDirectory (.planned [{}])).2.events = ["at /a\nb"] ∧
      (planned.inputOf (.atOnce planned.host) 0 ⟨{ coming := [{}] }, {}⟩
        (planned.run inTwoLineDirectory (.planned [{}])).2.events).splitOn newline =
        [Utf8.ofString "at /a", Utf8.ofString "b", []] := by
    decide +kernel
  obtain ⟨hfinished, haccepted, hinput⟩ := hrun
  obtain ⟨s, hs⟩ := run_eq_of_fst hfinished
  rw [hs] at haccepted hinput
  exact ⟨s, hs, haccepted, hinput⟩

end Runner

end LineScript
