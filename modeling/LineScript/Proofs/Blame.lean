import LineScript.Proofs.ChildInput
import LineScript.Proofs.Reading

/-!
# The line that an error names

A call of the host that fails while a line is carried out stops the run, and the error of the run is
made of that call. For a start and for a text it has the number and the text of the line. A restart
also ends the child before, and that failure is passed on as it is. Main result: whatever call of
the host fails at a line of a script, it is the last one of the line, the run fails with its error,
and the error names that line, the number of which is its place in the script, unless the call was
to end a child.
-/

namespace LineScript

/-- The number and the directive of the line that an error names. -/
def RunError.line? : RunError → Option (Nat × String)
  | .spawn line directive _ _ | .write line directive _ => some (line, directive)
  | _ => none

/-- The line after some lines of a script has the next number. -/
theorem Script.number_of_read {baseDir : String} {source : Source} {before after : List Line}
    {line : Line} (h : (read baseDir source).lines = before ++ line :: after) :
    line.number = before.length + 1 := by
  have hnumbers := read_numbers baseDir source
  rw [h] at hnumbers
  have hplace := congrArg (·[before.length]?) hnumbers
  simp only [List.getElem?_map, List.getElem?_append_right (Nat.le_refl _), Nat.sub_self,
    List.getElem?_cons_zero, Option.map_some] at hplace
  rw [List.getElem?_range' (by simp)] at hplace
  have hnumber := Option.some.inj hplace
  omega

/-- The error for a failing call keeps the failure as its source. -/
theorem Event.source_errorAt (event : Event) (line : Line) (program : String) (fault : Fault) :
    (event.errorAt line program fault).source? = some fault := by
  cases event <;> rfl

/-- The error for the end of a child names no line. -/
theorem Event.line?_errorAt_of_ended {event : Event} (h : event.ended?.isSome = true) (line : Line)
    (program : String) (fault : Fault) : (event.errorAt line program fault).line? = none := by
  cases event with
  | teardown => rfl
  | _ => cases h

namespace Runner

variable {β σ : Type} {r : Runner β σ}

/-- A text is handed out only where the command is to hand it out. -/
theorem Executed.command_of_send {line : Line} {command : Command} {books books' : Books}
    {events : List Event} {result : Except Halt Unit} {child : Nat} {text : String}
    {failure : Option Fault} (h : r.Executed line command books events result books')
    (hmem : .send child text failure ∈ events) : command = .send text := by
  cases h with
  | unended hended => exact nomatch hended.isEnding _ hmem
  | unstarted hended | restarted hended =>
    rcases List.mem_append.mp hmem with hending | hstart
    · exact nomatch hended.isEnding _ hending
    · simp at hstart
  | refused =>
    obtain ⟨-, rfl, -⟩ : child = _ ∧ text = _ ∧ failure = _ := by simpa using hmem
    rfl
  | @sent sent books recipient drained result books' _ hdrained =>
    obtain ⟨-, rfl, -⟩ | hlater : (child = recipient ∧ text = sent ∧ failure = none) ∨
        .send child text failure ∈ drained := by
      simpa using hmem
    · rfl
    · exact nomatch List.filterMap_eq_nil_iff.mp hdrained.deliveries_eq _ hlater
  | _ => simp at hmem

/-- The error for a failing call at a line names the line, unless the call was to end a child. -/
theorem Carried.names {s s' : RunState β σ} {line : Line} {own : List Event}
    {result : Except Halt Unit} {event : Event} {fault : Fault}
    (h : r.Carried line s own result s') (hmem : event ∈ own) (hcall : event.isHostCall = true)
    (hfault : event.fault? = some fault) (hended : event.ended? = none) :
    (event.errorAt line r.host.program fault).line? = some (line.number, line.text) := by
  cases event with
  | start => rfl
  | send child text failure =>
    have htext : text = line.text := Core.send_of_step (h.rule.command_of_send hmem)
    rw [htext]
    rfl
  | poll => cases hfault
  | hasExited => cases hfault
  | teardown => cases hended
  | _ => cases hcall

/-- A failing call of a line is the last one, and the only one that fails. -/
theorem Carried.breaks {s s' : RunState β σ} {line : Line} {own : List Event}
    {result : Except Halt Unit} {event : Event} {fault : Fault}
    (h : r.Carried line s own result s') (hmem : event ∈ own) (hfault : event.fault? = some fault) :
    BreaksAt own event fault ∧
      result = .error (.failed (event.errorAt line r.host.program fault)) := by
  have haccounts := h.rule.accounts
  have hfaulty : ¬ Faultless own := fun hfaultless => by
    rw [hfaultless event hmem] at hfault
    cases hfault
  match result with
  | .error (.failed error) =>
    obtain ⟨last, fault', ⟨earlier, rfl, hearlier, hlast⟩, rfl⟩ := haccounts
    rcases List.mem_append.mp hmem with hbefore | hown
    · rw [hearlier event hbefore] at hfault
      cases hfault
    · obtain rfl := List.mem_singleton.mp hown
      obtain rfl : fault' = fault := Option.some.inj (hlast.symm.trans hfault)
      exact ⟨⟨earlier, rfl, hearlier, hlast⟩, rfl⟩
  | .error .unfinished => exact absurd haccounts hfaulty
  | .ok () => exact absurd haccounts hfaulty

/-- Lines stop where one of them does. -/
theorem runLines_of_stop {before after : List Line} {line : Line} {halt : Halt}
    {s s₁ s₂ : RunState β σ} (hbefore : (r.runLines before).run.run s = (.ok (), s₁))
    (hline : (r.runLine line).run.run s₁ = (.error halt, s₂)) :
    (r.runLines (before ++ line :: after)).run.run s = (.error halt, s₂) := by
  induction before generalizing s with
  | nil =>
    cases hbefore
    rw [List.nil_append, runLines, run_bind, hline]
  | cons first rest ih =>
    rw [runLines, run_bind] at hbefore
    rw [List.cons_append, runLines, run_bind]
    rcases hfirst : (r.runLine first).run.run s with ⟨_ | _, t⟩
    · rw [hfirst] at hbefore
      cases hbefore
    · rw [hfirst] at hbefore
      exact ih hbefore

/-- A run fails as its lines do. -/
theorem run_of_failed_lines {script : Script} {s t : RunState β σ} {error : RunError}
    (h : (r.runLines script.lines).run.run s = (.error (.failed error), t)) :
    (r.run script s).1 = .failed error := by
  have hscript : (r.runScript script).run.run s = (.error (.failed error), t) := by
    rw [runScript, run_bind, h]
  obtain ⟨cleanup, failure, closing, t', hconclude, -, -⟩ := r.conclude_failed error t
  rw [r.run_eq_conclude hscript nofun, hconclude.ends]

/-- Whether a failing call at a line is what the run of a script fails with, and how the error names
the line. -/
structure BlamesLine (r : Runner β σ) (script : Script) (s : RunState β σ) (line : Line)
    (own : List Event) (result : Except Halt Unit) (event : Event) (fault : Fault)
    (error : RunError) : Prop where
  /-- The call is the last of the line and the first that fails. -/
  breaks : BreaksAt own event fault
  /-- The line fails with the error. -/
  stops : result = .error (.failed error)
  /-- So does the run. -/
  fails : (r.run script s).1 = .failed error
  /-- The error has the failure of the call as its source. -/
  source : error.source? = some fault
  /-- After a failing start and after a failing text, it has the number and the text of the line. -/
  named : event.ended? = none → error.line? = some (line.number, line.text)
  /-- After a failing end of a child it has neither. -/
  unnamed : event.ended?.isSome = true → error.line? = none

/-- A call of the host that fails at a line of a script stops the run. The error names the line,
unless the call was to end a child. -/
theorem run_blames (r : Runner β σ) {baseDir : String} {source : Source} {before after : List Line}
    {line : Line} (hlines : (Script.read baseDir source).lines = before ++ line :: after)
    {s s₁ s₂ : RunState β σ} {result : Except Halt Unit}
    (hbefore : (r.runLines before).run.run s = (.ok (), s₁))
    (hline : (r.runLine line).run.run s₁ = (result, s₂)) {own : List Event}
    (hown : s₂.events = s₁.events ++ own) {event : Event} (hmem : event ∈ own)
    (hcall : event.isHostCall = true) {fault : Fault} (hfault : event.fault? = some fault) :
    line.number = before.length + 1 ∧
      ∃ error, r.BlamesLine (Script.read baseDir source) s line own result event fault error := by
  obtain ⟨events, result', s', hcarried⟩ := r.runLine_follows line s₁
  have hsame : (result', s') = (result, s₂) := hcarried.does.ends.symm.trans hline
  cases hsame
  obtain rfl : events = own := List.append_cancel_left (hcarried.does.events_eq.symm.trans hown)
  obtain ⟨hbreaks, rfl⟩ := hcarried.breaks hmem hfault
  have hstopped : (r.runLines (before ++ line :: after)).run.run s =
      (.error (.failed (event.errorAt line r.host.program fault)), s₂) :=
    runLines_of_stop hbefore hline
  rw [← hlines] at hstopped
  exact ⟨Script.number_of_read hlines, _, hbreaks, rfl, run_of_failed_lines hstopped,
    event.source_errorAt line r.host.program fault, hcarried.names hmem hcall hfault,
    fun hended => event.line?_errorAt_of_ended hended line r.host.program fault⟩

/-- A child that takes no text. -/
def closed : List ChildPlan := [{ sendFailure := some (0, .brokenPipe) }]

/-- The state after the first line of a script, which starts a child that takes no text. -/
def closedStarted : RunState ScriptedState LimitedSink :=
  ((planned.runLines [⟨1, "RESTART"⟩]).run.run (.planned closed)).2

/-- A child that does not take the text of the second line. -/
theorem run_blames_refused_text :
    ∃ s₁ s₂ error,
      (planned.runLines [⟨1, "RESTART"⟩]).run.run (.planned closed) = (.ok (), s₁) ∧
      (planned.runLine ⟨2, "hello"⟩).run.run s₁ = (.error (.failed error), s₂) ∧
      s₂.events = s₁.events ++
        [.write "> hello\n" none, .flush none, .send 0 "hello" (some .brokenPipe)] ∧
      (planned.run (Script.ofText "/d" "RESTART\nhello\n") (.planned closed)).1 =
        .failed error ∧
      error.line? = some (2, "hello") := by
  have hlines : (Script.read "/d" (.ofBytes (Utf8.ofString "RESTART\nhello\n"))).lines =
      [⟨1, "RESTART"⟩] ++ ⟨2, "hello"⟩ :: [] := by
    decide +kernel
  have hfirst : ((planned.runLines [⟨1, "RESTART"⟩]).run.run (.planned closed)).1 = .ok () := by
    decide +kernel
  have hstarted : (planned.runLines [⟨1, "RESTART"⟩]).run.run (.planned closed) =
      (.ok (), closedStarted) := Prod.ext hfirst rfl
  have hevents : ((planned.runLine ⟨2, "hello"⟩).run.run closedStarted).2.events =
      closedStarted.events ++
        [.write "> hello\n" none, .flush none, .send 0 "hello" (some .brokenPipe)] := by
    decide +kernel
  have hmem : Event.send 0 "hello" (some .brokenPipe) ∈
      [.write "> hello\n" none, .flush none, .send 0 "hello" (some .brokenPipe)] := by
    simp
  obtain ⟨-, error, hblames⟩ := run_blames planned hlines hstarted rfl hevents hmem rfl rfl
  exact ⟨_, _, error, hstarted, Prod.ext hblames.stops rfl, hevents, hblames.fails,
    hblames.named rfl⟩

/-- A script whose second line ends the child of the first one. -/
def twoRestarts : Script := Script.ofText "/d" "RESTART\nRESTART\n"

/-- A child that cannot be ended, and one more. -/
def stuckAndFree : List ChildPlan := [{ teardownFailure := some ⟨.other, "stuck"⟩ }, {}]

/-- A child that cannot be ended for the restart at the second line: the error names no line. -/
theorem run_blames_nobody :
    ∃ s, planned.run twoRestarts (.planned stuckAndFree) = (.failed (.io ⟨.other, "stuck"⟩), s) ∧
      twoRestarts.lines = [⟨1, "RESTART"⟩, ⟨2, "RESTART"⟩] ∧
      s.events = [.start 0 .empty none, .teardown 0 ⟨some ⟨.other, "stuck"⟩, none⟩, .flush none] ∧
      s.report.lines = 2 ∧ (RunError.io ⟨.other, "stuck"⟩).line? = none := by
  have hrun : (planned.run twoRestarts (.planned stuckAndFree)).1 =
        .failed (.io ⟨.other, "stuck"⟩) ∧
      twoRestarts.lines = [⟨1, "RESTART"⟩, ⟨2, "RESTART"⟩] ∧
      (planned.run twoRestarts (.planned stuckAndFree)).2.events =
        [.start 0 .empty none, .teardown 0 ⟨some ⟨.other, "stuck"⟩, none⟩, .flush none] ∧
      (planned.run twoRestarts (.planned stuckAndFree)).2.report.lines = 2 := by
    decide +kernel
  obtain ⟨hfailed, hlines, hevents, hreport⟩ := hrun
  obtain ⟨s, hs⟩ := run_eq_of_fst hfailed
  rw [hs] at hevents hreport
  exact ⟨s, hs, hlines, hevents, hreport, rfl⟩

/-- If a child cannot be ended, the attempt is among the events. -/
theorem Ended.exists_teardown {child : Option Nat} {events : List Event} {fault : Fault}
    (h : Ended child events (some fault)) :
    ∃ number answer, .teardown number answer ∈ events ∧ answer.failure = some fault := by
  generalize hfailure : some fault = failure at h
  cases h with
  | absent => cases hfailure
  | @called number answer =>
    exact ⟨number, answer, List.mem_append_right _ List.mem_cons_self, rfl⟩

/-- With a sink that never fails and a script that can be read, an error that names no line comes
from a child that cannot be ended. -/
theorem run_names (r : Runner β σ) {script : Script} {s s' : RunState β σ} {error : RunError}
    (h : r.run script s = (.failed error, s')) (hworks : r.sink.Works s.sink)
    (hread : script.failure = none) :
    (∃ line ∈ script.lines, error.line? = some (line.number, line.text)) ∨
      ∃ child answer fault, .teardown child answer ∈ s'.events ∧ answer.failure = some fault ∧
        error = .io fault := by
  obtain ⟨events, hevents, htalk, hran⟩ := ran_of_run h
  have hsink := htalk.sink_faultless hworks
  rw [hevents]
  generalize s'.books = books' at hran
  cases hran with
  | failed hlines hended =>
    obtain ⟨before, line, after, first, own, s₁, hsplit, rfl, -, hline⟩ := hlines.stop_cases
    obtain ⟨event, fault, ⟨earlier, rfl, -, hfault⟩, rfl⟩ := hline.rule.accounts
    have hown : event ∈ earlier ++ [event] := List.mem_concat_self
    have hcall : event.isHostCall = true := by
      by_contra hother
      have hnone := hsink event
        (List.mem_append_left _ (List.mem_append_right _ hown)) (Bool.eq_false_iff.mpr hother)
      rw [hnone] at hfault
      cases hfault
    cases hended : event.ended? with
    | none =>
      have hmem : line ∈ script.lines := hsplit ▸ List.mem_append_right _ List.mem_cons_self
      exact .inl ⟨line, hmem, hline.names hown hcall hfault hended⟩
    | some child =>
      cases event with
      | teardown child answer =>
        refine .inr ⟨child, answer, fault, ?_, hfault, rfl⟩
        simp
      | _ => cases hended
  | unread _ hfault =>
    rw [hread] at hfault
    cases hfault
  | unended _ _ hended =>
    obtain ⟨child, answer, hmem, hfailure⟩ := hended.exists_teardown
    refine .inr ⟨child, answer, _, ?_, hfailure, rfl⟩
    exact List.mem_append_right _ (List.mem_append_right _ (List.mem_append_left _ hmem))

end Runner

end LineScript
