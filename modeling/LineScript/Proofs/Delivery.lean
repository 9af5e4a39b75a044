import LineScript.Proofs.Failure

/-!
# What reaches which child

The commands of a script are a plain list, without hosts and sinks. A restart
opens a part of that list, and the texts up to the next restart belong to the
child that it starts. Main result: a run that finishes makes exactly the starts
and sends that the list of commands asks for, each once and in order; a run that
fails makes those of the lines before, and at most one more. Without a restart
the host is not called at all.
-/

namespace LineScript

namespace Command

/-- The variables of a restart. -/
def restart? : Command → Option Environment
  | .restart env => some env
  | _ => none

/-- The text of a line for a child. -/
def text? : Command → Option String
  | .send text => some text
  | _ => none

end Command

/-- The texts between a restart and the next one, counted from 1; what comes
before the first restart has the number 0. -/
def textsAfter : Nat → List Command → List String
  | _, [] => []
  | 0, command :: rest =>
    match command with
    | .restart _ => []
    | .send text => text :: textsAfter 0 rest
    | _ => textsAfter 0 rest
  | number + 1, command :: rest =>
    match command with
    | .restart _ => textsAfter number rest
    | _ => textsAfter (number + 1) rest

/-- A text belongs to the restart before it. -/
example : textsAfter 1 [.send "a", .restart .empty, .send "b", .nothing, .send "c",
    .restart .empty, .send "d"] = ["b", "c"] := rfl

/-- A call that brings something to a child. -/
inductive Delivery where
  /-- A child is started with variables. -/
  | start (child : Nat) (env : Environment)
  /-- A text is handed to a child. -/
  | send (child : Nat) (text : String)

namespace Delivery

/-- The variables of a start, with the number of the child. -/
def start? : Delivery → Option (Environment × Nat)
  | .start child env => some (env, child)
  | .send .. => none

/-- The text that is handed out. -/
def text? : Delivery → Option String
  | .start .. => none
  | .send _ text => some text

/-- The text that is handed to the given child. -/
def textFor? (child : Nat) : Delivery → Option String
  | .start .. => none
  | .send recipient text => if recipient = child then some text else none

end Delivery

/-- What an event brings to a child, whether it succeeds or not. -/
def Event.delivery? : Event → Option Delivery
  | .start child env _ => some (.start child env)
  | .send child text _ => some (.send child text)
  | _ => none

/-- The starts and sends in a list of events. -/
def deliveries (events : List Event) : List Delivery := events.filterMap Event.delivery?

/-- The child that was started last, given how many were. -/
def latest : Nat → Option Nat
  | 0 => none
  | child + 1 => some child

namespace Command

/-- The starts and sends that a command asks for, after so many starts. -/
def deliveries (started : Nat) : Command → List Delivery
  | .restart env => [.start started env]
  | .send text =>
    match latest started with
    | none => []
    | some child => [.send child text]
  | _ => []

/-- How many children were started after a command. -/
def startedAfter (started : Nat) : Command → Nat
  | .restart _ => started + 1
  | _ => started

end Command

/-- The starts and sends that commands ask for, after so many starts. -/
def scheduled : Nat → List Command → List Delivery
  | _, [] => []
  | started, command :: rest =>
    command.deliveries started ++ scheduled (command.startedAfter started) rest

/-- The scheduled texts of a child are those after its restart. The child that
was started last gets those before the next restart too. -/
theorem texts_scheduled (started child : Nat) (commands : List Command) :
    (scheduled started commands).filterMap (Delivery.textFor? child) =
      if started ≤ child + 1 then textsAfter (child + 1 - started) commands else [] := by
  induction commands generalizing started with
  | nil => simp [scheduled, textsAfter]
  | cons command rest ih =>
    rw [scheduled, List.filterMap_append, ih]
    cases command with
    | restart env =>
      have hnone : (Command.deliveries started (.restart env)).filterMap
          (Delivery.textFor? child) = [] := rfl
      rw [hnone, List.nil_append, Command.startedAfter]
      -- The restart is one of those to skip, or it ends the texts of the child.
      rcases Nat.lt_trichotomy started (child + 1) with hlt | rfl | hgt
      · have hnumber : child + 1 - started = (child + 1 - (started + 1)) + 1 := by omega
        rw [if_pos (by omega), if_pos (by omega), hnumber, textsAfter]
      · rw [if_neg (by omega), if_pos (by omega), Nat.sub_self, textsAfter]
      · rw [if_neg (by omega), if_neg (by omega)]
    | send text =>
      cases started with
      | zero => rfl
      | succ last =>
        have hown : (Command.deliveries (last + 1) (.send text)).filterMap
            (Delivery.textFor? child) = if last = child then [text] else [] := by
          by_cases h : last = child <;> simp [Command.deliveries, latest, Delivery.textFor?, h]
        have hafter : Command.startedAfter (last + 1) (.send text) = last + 1 := rfl
        rw [hown, hafter]
        -- The text belongs to the child started last, which may be the one in question.
        rcases Nat.lt_trichotomy last child with hlt | rfl | hgt
        · have hnumber : child + 1 - (last + 1) = (child - last - 1) + 1 := by omega
          rw [if_neg (by omega), if_pos (by omega), if_pos (by omega), hnumber]
          rfl
        · rw [if_pos rfl, if_pos (by omega), if_pos (by omega), Nat.sub_self]
          rfl
        · rw [if_neg (by omega), if_neg (by omega), if_neg (by omega)]
          rfl
    | _ =>
      change (if started ≤ child + 1 then textsAfter (child + 1 - started) rest else []) = _
      cases child + 1 - started <;> rfl

/-- The commands of two lists of lines in turn. -/
theorem Core.commands_append (core : Core) (first second : List String) :
    core.commands (first ++ second) =
      core.commands first ++ (core.after first).commands second := by
  induction first generalizing core with
  | nil => rfl
  | cons text rest ih =>
    rw [List.cons_append, Core.commands, ih]
    rfl

/-- The schedule of two lists of commands in turn. -/
theorem scheduled_append (started : Nat) (first second : List Command) :
    scheduled started (first ++ second) =
      scheduled started first ++ scheduled
        (first.foldl (fun started command => command.startedAfter started) started) second := by
  induction first generalizing started with
  | nil => rfl
  | cons command rest ih =>
    rw [List.cons_append, scheduled, ih, scheduled, List.append_assoc, List.foldl_cons]

/-- The schedule of commands and of one command more. -/
theorem scheduled_concat (started : Nat) (commands : List Command) (command : Command) :
    scheduled started (commands ++ [command]) =
      scheduled started commands ++ command.deliveries
        (commands.foldl (fun started command => command.startedAfter started) started) := by
  rw [scheduled_append, scheduled, scheduled, List.append_nil]

/-- As many children are started as there are restarts. -/
theorem startedAfter_eq (started : Nat) (commands : List Command) :
    commands.foldl (fun started command => command.startedAfter started) started =
      started + (commands.filterMap Command.restart?).length := by
  induction commands generalizing started with
  | nil => rfl
  | cons command rest ih =>
    rw [List.foldl_cons, ih]
    cases command with
    | restart env =>
      have hone : (Command.restart env :: rest).filterMap Command.restart? =
          env :: rest.filterMap Command.restart? := rfl
      rw [hone, List.length_cons, Command.startedAfter]
      omega
    | _ => rfl

/-- A child is the latest one of as many as its number and one more. -/
theorem eq_of_latest {started child : Nat} (h : latest started = some child) :
    started = child + 1 := by
  cases started with
  | zero => cases h
  | succ last => exact congrArg (· + 1) (Option.some.inj h)

/-- Starts and sends of two lists of events. -/
theorem deliveries_append (first second : List Event) :
    deliveries (first ++ second) = deliveries first ++ deliveries second :=
  List.filterMap_append

/-- Without a child and without a start, a custody allows no call of the host. -/
theorem Custody.Keeps.quiet {k k' : Custody} {events : List Event} (h : Keeps k events k')
    (hnone : k.child = none) (hquiet : ∀ event ∈ events, event.delivery? = none) :
    ∀ event ∈ events, event.isHostCall = false := by
  induction h with
  | nil => exact List.forall_mem_nil _
  | cons hevent _ ih =>
    obtain ⟨hhead, hrest⟩ := List.forall_mem_cons.mp hquiet
    cases hevent with
    | started => cases hhead
    | refused => cases hhead
    | used => cases hnone
    | ended => cases hnone
    | other hother => exact List.forall_mem_cons.mpr ⟨hother, ih hnone hrest⟩

namespace Runner

variable {β σ : Type} {r : Runner β σ}

/-- A drain brings nothing to the child. -/
theorem Drained.deliveries_eq {child left : Nat} {books books' : Books} {events : List Event}
    {result : Except Halt Unit} (h : r.Drained child left books events result books') :
    deliveries events = [] := by
  induction h with
  | more _ ih => exact ih
  | _ => rfl

/-- The end of a child brings nothing to it. -/
theorem Ended.deliveries_eq {child : Option Nat} {events : List Event} {failure : Option Fault}
    (h : Ended child events failure) : deliveries events = [] := by
  cases h with
  | absent => rfl
  | @called child answer =>
    obtain ⟨failure, killedAfter⟩ := answer
    cases killedAfter <;> rfl

/-- What a command brings to a child, whether it succeeds or not. -/
theorem Executed.deliveries_eq {line : Line} {command : Command} {books books' : Books}
    {events : List Event} {result : Except Halt Unit}
    (hcurrent : books.child = latest books.started)
    (h : r.Executed line command books events result books') :
    deliveries events = command.deliveries books.started ∨
      deliveries events = [] ∧ ∃ error, result = .error (.failed error) := by
  cases h with
  | nothing => exact .inl rfl
  | skipMode => exact .inl rfl
  | unended hended => exact .inr ⟨hended.deliveries_eq, _, rfl⟩
  | unstarted hended =>
    left
    rw [deliveries_append, hended.deliveries_eq]
    rfl
  | restarted hended =>
    left
    rw [deliveries_append, hended.deliveries_eq]
    rfl
  | dropped hchild =>
    left
    rw [Command.deliveries, ← hcurrent, hchild]
    rfl
  | unwritten => exact .inr ⟨rfl, _, rfl⟩
  | unflushed => exact .inr ⟨rfl, _, rfl⟩
  | refused hchild =>
    left
    rw [Command.deliveries, ← hcurrent, hchild]
    rfl
  | sent hchild hdrained =>
    left
    rw [Command.deliveries, ← hcurrent, hchild]
    exact congrArg (_ :: ·) hdrained.deliveries_eq
  | unannounced => exact .inr ⟨rfl, _, rfl⟩
  | unshown => exact .inr ⟨rfl, _, rfl⟩
  | slept => exact .inl rfl
  | malformed => exact .inl rfl

/-- A command that is carried out leaves the child that was started last. -/
theorem Executed.current {line : Line} {command : Command} {books books' : Books}
    {events : List Event} (hcurrent : books.child = latest books.started)
    (h : r.Executed line command books events (.ok ()) books') :
    books'.started = command.startedAfter books.started ∧
      books'.child = latest books'.started := by
  generalize hresult : Except.ok () = result at h
  cases h with
  | unended => cases hresult
  | unstarted => cases hresult
  | restarted => exact ⟨rfl, rfl⟩
  | sent _ hdrained =>
    rw [hdrained.books_eq]
    exact ⟨rfl, hcurrent⟩
  | _ => exact ⟨rfl, hcurrent⟩

/-- Lines that are carried out deliver what their commands ask for, and leave the
child that was started last. -/
theorem Performed.delivers {s s' : RunState β σ} {lines : List Line} {events : List Event}
    (hcurrent : s.child = latest s.started) (h : r.Performed s lines events (.ok ()) s') :
    deliveries events = scheduled s.started (s.core.commands (lines.map Line.text)) ∧
      s'.core = s.core.after (lines.map Line.text) ∧
      s'.started = (s.core.commands (lines.map Line.text)).foldl
        (fun started command => command.startedAfter started) s.started ∧
      s'.child = latest s'.started := by
  generalize hresult : Except.ok () = result at h
  induction h with
  | nil => exact ⟨rfl, rfl, rfl, hcurrent⟩
  | stopped => cases hresult
  | @cons s line rest events events' result s₁ s₂ hline _ ih =>
    obtain ⟨hstarted, hlive⟩ := hline.rule.current hcurrent
    have hcore₁ : s₁.core = (s.core.step line.text).2 := hline.rule.core_eq
    have hstarted₁ : s₁.started = (s.core.step line.text).1.startedAfter s.started := hstarted
    obtain ⟨hdelivered, hrest⟩ := ih hlive hresult
    rw [hcore₁, hstarted₁] at hdelivered hrest
    refine ⟨?_, hrest⟩
    rcases hline.rule.deliveries_eq hcurrent with hown | ⟨_, _, hfailed⟩
    · rw [deliveries_append, hown, hdelivered]
      rfl
    · cases hfailed

/-- A script that stops at a line has delivered what the lines before it ask for,
and nothing more or what that line asks for. -/
theorem Performed.delivers_stop {s s' : RunState β σ} {lines : List Line} {events : List Event}
    {halt : Halt} (hcurrent : s.child = latest s.started)
    (h : r.Performed s lines events (.error halt) s') :
    ∃ before line after served s₁, lines = before ++ line :: after ∧
      (r.runLines before).run.run s = (.ok (), s₁) ∧
      (r.runLine line).run.run s₁ = (.error halt, s') ∧
      (served = before ∨ served = before ++ [line]) ∧
      deliveries events = scheduled s.started (s.core.commands (served.map Line.text)) := by
  obtain ⟨before, line, after, first, own, s₁, hlines, rfl, hbefore, hline⟩ := h.stop_cases
  obtain ⟨hdelivered, hcore, hstarted, hlive⟩ := hbefore.delivers hcurrent
  rcases hline.rule.deliveries_eq hlive with hown | ⟨hown, _⟩
  · refine ⟨before, line, after, before ++ [line], s₁, hlines, hbefore.does.ends, hline.does.ends,
      .inr rfl, ?_⟩
    have hnumber : (s₁.books.readLine line.text).started = s₁.started := rfl
    rw [deliveries_append, hdelivered, hown, List.map_append, List.map_singleton,
      Core.commands_append, Core.commands, Core.commands, scheduled_concat, hcore, hnumber,
      hstarted]
  · refine ⟨before, line, after, before, s₁, hlines, hbefore.does.ends, hline.does.ends,
      .inl rfl, ?_⟩
    rw [deliveries_append, hdelivered, hown, List.append_nil]

/-- After the lines of a script nothing is brought to any child. -/
theorem Ended.deliveries_after {child : Option Nat} {cleanup : List Event}
    {failure : Option Fault} (h : Ended child cleanup failure) (work : List Event)
    (closing failed : Option Fault) :
    deliveries (work ++ (cleanup ++ .flush closing :: farewell failed)) = deliveries work := by
  have hlast : deliveries (.flush closing :: farewell failed) = [] := by cases failed <;> rfl
  rw [deliveries_append, deliveries_append, h.deliveries_eq, hlast]
  exact List.append_nil _

variable (r) in
/-- How a run comes from the work on the lines of its script. -/
structure Worked (script : Script) (s : RunState β σ) (events : List Event) (outcome : Outcome)
    (books' : Books) (work : List Event) (result : Except Halt Unit) (s₁ : RunState β σ) :
    Prop where
  /-- The lines are carried out, as far as they are. -/
  performed : r.Performed s script.lines work result s₁
  /-- What they do comes first. -/
  isPrefix : work <+: events
  /-- Nothing is brought to any child after them. -/
  delivered : deliveries events = deliveries work
  /-- Nothing is counted after them. -/
  report_eq : books'.report = s₁.report
  /-- A run is finished only if all of them are carried out. -/
  finished : ∀ report, outcome = .finished report → result = .ok ()
  /-- A run fails with one of them, or after all of them. -/
  failed : ∀ error, outcome = .failed error → result = .ok () ∨ result = .error (.failed error)
  /-- A run comes to no end only if one of them does not. -/
  unfinished : outcome = .unfinished → result = .error .unfinished

/-- Every run comes from the work on its lines. -/
theorem Ran.worked {script : Script} {s : RunState β σ} {books' : Books} {events : List Event}
    {outcome : Outcome} (h : r.Ran script s events outcome books') :
    ∃ work result s₁, r.Worked script s events outcome books' work result s₁ := by
  cases h with
  | unfinished hlines =>
    exact ⟨_, _, _, hlines, List.prefix_refl _, rfl, rfl, nofun, nofun, fun _ => rfl⟩
  | failed hlines hended =>
    refine ⟨_, _, _, hlines, List.prefix_append _ _, hended.deliveries_after _ _ _, rfl, nofun, ?_,
      nofun⟩
    rintro _ ⟨⟩
    exact .inr rfl
  | unread hlines _ hended =>
    exact ⟨_, _, _, hlines, List.prefix_append _ _, hended.deliveries_after _ _ _, rfl, nofun,
      fun _ _ => .inl rfl, nofun⟩
  | unended hlines _ hended =>
    exact ⟨_, _, _, hlines, List.prefix_append _ _, hended.deliveries_after _ _ none, rfl, nofun,
      fun _ _ => .inl rfl, nofun⟩
  | finished hlines _ hended =>
    exact ⟨_, _, _, hlines, List.prefix_append _ _, hended.deliveries_after _ _ none, rfl,
      fun _ _ => rfl, nofun, nofun⟩

/-- After the work on its lines a run brings nothing to any child. -/
theorem Worked.closing {script : Script} {s s₁ : RunState β σ} {events work : List Event}
    {outcome : Outcome} {books' : Books} {result : Except Halt Unit}
    (h : r.Worked script s events outcome books' work result s₁) :
    ∃ closing, events = work ++ closing ∧ deliveries closing = [] := by
  obtain ⟨closing, rfl⟩ := h.isPrefix
  have hdelivered := h.delivered
  rw [deliveries_append] at hdelivered
  exact ⟨closing, rfl, List.append_right_eq_self.mp hdelivered⟩

/-- A run that is finished has carried out its lines, and brings nothing to any child after them. -/
theorem Ran.carried_out {script : Script} {s : RunState β σ} {events : List Event}
    {report : Report} {books' : Books}
    (h : r.Ran script s events (.finished report) books') :
    ∃ work closing s₁, r.Performed s script.lines work (.ok ()) s₁ ∧ events = work ++ closing ∧
      deliveries closing = [] ∧ books' = s₁.books.endChild := by
  cases h with
  | @finished work s₁ cleanup closing hlines _ hended =>
    refine ⟨work, _, s₁, hlines, rfl, ?_, rfl⟩
    rw [deliveries_append, hended.deliveries_eq]
    rfl

end Runner

end LineScript
