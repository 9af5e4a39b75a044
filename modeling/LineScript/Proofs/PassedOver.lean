import Mathlib.Tactic.SplitIfs
import LineScript.Proofs.SideBySide

/-!
# Lines that are passed over

A line may ask for nothing, because it is blank, a comment or part of a skipped
block, or it may hold a directive that cannot be used. Such a line leaves no trace but
a count and a warning. Scripts are edited by changing, taking out and putting in lines
that are passed over where they stand. Main result: the run of the edited script is
that of the script, but for the counts, numbers and warnings that the edit has to
touch; and what stands in a skipped block does not matter at all.
-/

namespace LineScript

namespace Directive

/-- `ENV` never asks for nothing. -/
theorem parseEnv_ne_ignored (arguments : List Char) : parseEnv arguments ≠ .ok .ignored := by
  unfold parseEnv
  cases Text.splitAtBlank? arguments with
  | none => nofun
  | some split =>
    dsimp only
    cases Text.trimStart split.2 <;> nofun

/-- A keyword that stands alone asks for its directive, if for any. -/
theorem withoutArguments_ne {keyword : String} {directive other : Directive}
    (h : directive ≠ other) (arguments : List Char) :
    withoutArguments keyword directive arguments ≠ .ok other := by
  cases arguments with
  | nil => simpa [withoutArguments] using h
  | cons => nofun

/-- What is read by its first word is never ignored. -/
theorem ofWords_ne_ignored (line : List Char) : ofWords line ≠ .ok .ignored := by
  rcases hsplit : splitKeyword line with ⟨keyword, arguments⟩
  simp only [ofWords, hsplit]
  split_ifs
  · exact parseEnv_ne_ignored arguments
  · exact withoutArguments_ne (show Directive.envClear ≠ .ignored by nofun) arguments
  · exact withoutArguments_ne (show Directive.restart ≠ .ignored by nofun) arguments
  · cases parseDelay arguments <;> nofun
  · nofun

/-- A line asks for nothing exactly if it does not begin with the end marker and is
skipped, blank or a comment. -/
theorem classify_eq_ignored_iff {text : String} {skipping : Bool} :
    classify text skipping = .ok .ignored ↔
      beginsWith endSkipMarker text.toList = false ∧
        (skipping = true ∨ text.toList = [] ∨ text.toList.head? = some '#') := by
  have hwords := ofWords_ne_ignored text.toList
  unfold classify classifyChars
  split_ifs with hend hquiet hstart
  · simp [hend]
  · simpa [hend, or_assoc] using hquiet
  · simpa [hend, or_assoc] using hquiet
  · simpa [hend, or_assoc, hwords] using hquiet

end Directive

/-- What an edit does with lines that are passed over. Each one may be replaced. -/
structure Edit where
  /-- Whether lines are taken out or put in, so that others get new numbers. -/
  renumbers : Bool
  /-- Whether lines with unusable directives are touched, so that there are other
  warnings. -/
  rewarns : Bool

namespace Edit

variable {β σ : Type} (edit : Edit)

/-- What an edit leaves of a number of lines: nothing, if lines get new numbers. -/
def number (n : Nat) : Nat := if edit.renumbers then 0 else n

/-- What an edit leaves of a line that it does not touch. -/
def line (line : Line) : Line := ⟨edit.number line.number, line.text⟩

/-- What an edit leaves of the counters. -/
def report (report : Report) : Report :=
  { report with
    lines := edit.number report.lines
    warnings := if edit.rewarns then 0 else report.warnings }

/-- What an edit leaves of an error. -/
def error : RunError → RunError
  | .spawn line directive program source => .spawn (edit.number line) directive program source
  | .write line directive source => .write (edit.number line) directive source
  | .scriptFormat line reason => .scriptFormat (edit.number line) reason
  | error => error

/-- What an edit leaves of an event, if it leaves any of it. -/
def event? : Event → Option Event
  | .warn (.malformed line reason) =>
    if edit.rewarns then none else some (.warn (.malformed (edit.line line) reason))
  | event => some event

/-- What an edit leaves of the end of a run. -/
def outcome : Outcome → Outcome
  | .finished report => .finished (edit.report report)
  | .failed error => .failed (edit.error error)
  | .unfinished => .unfinished

/-- What an edit leaves of the state after a run: all of it but counts, numbers and
warnings. -/
def state (s : RunState β σ) : RunState β σ :=
  { s with report := edit.report s.report, history := s.history.filterMap edit.event? }

/-- Whether a line is passed over in a context, as far as an edit may touch it. -/
def PassesOver (core : Core) (text : String) : Prop :=
  Directive.classify text core.skipping = .ok .ignored ∨
    edit.rewarns = true ∧ ∃ reason, Directive.classify text core.skipping = .error reason

/-- Lines before and after an edit, from a core on. -/
inductive Edited : Core → List Line → List Line → Prop
  /-- No line is left. -/
  | nil {core} : Edited core [] []
  /-- A line is kept. -/
  | kept {core line line' rest rest'} (hline : edit.line line' = edit.line line)
      (h : Edited (core.step line.text).2 rest rest') : Edited core (line :: rest) (line' :: rest')
  /-- A line that is passed over is replaced by another one. -/
  | replaced {core line line' rest rest'} (hline : edit.PassesOver core line.text)
      (hline' : edit.PassesOver core line'.text) (h : Edited core rest rest') :
      Edited core (line :: rest) (line' :: rest')
  /-- A line that is passed over is taken out. -/
  | deleted {core line rest rest'} (hedit : edit.renumbers = true)
      (hline : edit.PassesOver core line.text) (h : Edited core rest rest') :
      Edited core (line :: rest) rest'
  /-- A line that is passed over is put in. -/
  | inserted {core line' rest rest'} (hedit : edit.renumbers = true)
      (hline' : edit.PassesOver core line'.text) (h : Edited core rest rest') :
      Edited core rest (line' :: rest')

/-- Counting goes on with what an edit leaves of the counters. -/
theorem report_counting {change : Report → Report} (hchange : Report.Counting change)
    (report : Report) :
    edit.report (change report) = edit.report (change (edit.report report)) := by
  obtain ⟨renumbers, rewarns⟩ := edit
  cases renumbers <;> cases rewarns <;> cases hchange <;> rfl

/-- Two runs are compared by what an edit leaves of them. -/
def comparison : Comparison where
  lines line line' := edit.line line' = edit.line line
  errors error error' := edit.error error' = edit.error error
  reports report report' := edit.report report' = edit.report report
  histories history history' := history'.filterMap edit.event? = history.filterMap edit.event?
  text_eq {line line'} h :=
    have htext : (edit.line line').text = (edit.line line).text := congrArg Line.text h
    htext
  io _ := rfl
  spawn {line line'} h program fault :=
    congrArg (fun line : Line => RunError.spawn line.number line.text program fault) h
  write {line line'} h text fault :=
    congrArg (fun line : Line => RunError.write line.number text fault) h
  counted {change} hchange {report report'} h := by
    rw [edit.report_counting hchange report', h, ← edit.report_counting hchange report]
  noted event {history history'} h := by
    rw [List.filterMap_cons, List.filterMap_cons, h]
  warned {line line'} hline reason {history history'} h := by
    have hevent : edit.event? (.warn (.malformed line' reason)) =
        edit.event? (.warn (.malformed line reason)) := by
      rw [event?, event?, hline]
    rw [List.filterMap_cons, List.filterMap_cons, hevent, h]

open Runner

variable {edit} (r : Runner β σ)

/-- What an edit leaves of corresponding ends of a run is the same. -/
theorem outcome_eq {outcome outcome' : Outcome} (h : edit.comparison.Outcomes outcome outcome') :
    edit.outcome outcome' = edit.outcome outcome := by
  cases h with
  | finished hreport => exact congrArg Outcome.finished hreport
  | failed herror => exact congrArg Outcome.failed herror
  | unfinished => rfl

/-- What an edit leaves of corresponding states is the same. -/
theorem state_eq {s s' : RunState β σ} (h : edit.comparison.States s s') :
    edit.state s' = edit.state s := by
  obtain ⟨report, history, rfl, hreport, hhistory⟩ := h
  have hreport' : edit.report report = edit.report s.report := hreport
  have hhistory' : history.filterMap edit.event? = s.history.filterMap edit.event? := hhistory
  rw [state, state, hreport', hhistory']

/-- Numbers do not count where an edit changes them. -/
theorem report_lines (hedit : edit.renumbers = true) (report : Report) :
    edit.report { report with lines := report.lines + 1 } = edit.report report := by
  simp only [Edit.report, number, hedit, if_true]

/-- A line that is passed over is no more than counted and warned of. -/
theorem PassesOver.runs {line : Line} {s : RunState β σ} (h : edit.PassesOver s.core line.text)
    (rest : List Line) :
    ∃ report history,
      (r.runLines (line :: rest)).run.run s =
        (r.runLines rest).run.run { s with report, history } ∧
      edit.report report = edit.report { s.report with lines := s.report.lines + 1 } ∧
      history.filterMap edit.event? = s.history.filterMap edit.event? := by
  have hrun : (r.runLine line).run.run s =
      (r.execute line (s.core.step line.text).1).run.run
        { s with
          core := (s.core.step line.text).2
          report := { s.report with lines := s.report.lines + 1 } } :=
    rfl
  rcases h with hignored | ⟨hrewarns, reason, hreason⟩
  · have hstep : s.core.step line.text = (.nothing, s.core) := by
      rw [Core.step, hignored]
      rfl
    rw [hstep] at hrun
    refine ⟨_, s.history, ?_, rfl, rfl⟩
    rw [Runner.runLines, run_bind, hrun]
    rfl
  · have hstep : s.core.step line.text = (.malformed reason, s.core) := by
      rw [Core.step, hreason]
    rw [hstep] at hrun
    refine
      ⟨{ s.report with lines := s.report.lines + 1, warnings := s.report.warnings + 1 },
        .warn (.malformed line reason) :: s.history, ?_, ?_, ?_⟩
    · rw [Runner.runLines, run_bind, hrun]
      rfl
    · simp only [Edit.report, hrewarns, if_true]
    · rw [List.filterMap_cons, event?, if_pos hrewarns]

/-- Lines before and after an edit are alike. -/
theorem Edited.alike {core : Core} {lines lines' : List Line} (h : edit.Edited core lines lines')
    {s s' : RunState β σ} (hs : edit.comparison.States s s') (hcore : s.core = core) :
    edit.comparison.AlikeAt Eq (r.runLines lines) (r.runLines lines') s s' := by
  induction h generalizing s s' with
  | nil => exact ⟨.ok rfl, hs⟩
  | @kept core line line' rest rest' hline _ ih =>
    refine (edit.comparison.runLine_alike r hline s s' hs).bind fun _ t t' hrun ht => ih ht ?_
    have hstep := r.runLine_core line s
    rwa [hrun, hcore] at hstep
  | @replaced core line line' rest rest' hline hline' _ ih =>
    subst hcore
    obtain ⟨report₀, history₀, rfl, hreport₀, hhistory₀⟩ := hs
    obtain ⟨report₁, history₁, hrun₁, hreport₁, hhistory₁⟩ := PassesOver.runs r hline rest
    obtain ⟨report₂, history₂, hrun₂, hreport₂, hhistory₂⟩ :=
      PassesOver.runs r (s := { s with report := report₀, history := history₀ }) hline' rest'
    have hcounted := edit.comparison.counted .lines hreport₀
    have hstate : edit.comparison.States { s with report := report₁, history := history₁ }
        { s with report := report₂, history := history₂ } :=
      ⟨report₂, history₂, rfl, hreport₂.trans (hcounted.trans hreport₁.symm),
        hhistory₂.trans (hhistory₀.trans hhistory₁.symm)⟩
    exact .of_eq hrun₁ hrun₂ (ih hstate rfl)
  | @deleted core line rest rest' hedit hline _ ih =>
    subst hcore
    obtain ⟨report₀, history₀, rfl, hreport₀, hhistory₀⟩ := hs
    obtain ⟨report₁, history₁, hrun₁, hreport₁, hhistory₁⟩ := PassesOver.runs r hline rest
    rw [report_lines hedit] at hreport₁
    have hstate : edit.comparison.States { s with report := report₁, history := history₁ }
        { s with report := report₀, history := history₀ } :=
      ⟨report₀, history₀, rfl, hreport₀.trans hreport₁.symm, hhistory₀.trans hhistory₁.symm⟩
    exact .of_eq hrun₁ rfl (ih hstate rfl)
  | @inserted core line' rest rest' hedit hline' _ ih =>
    subst hcore
    obtain ⟨report₀, history₀, rfl, hreport₀, hhistory₀⟩ := hs
    obtain ⟨report₂, history₂, hrun₂, hreport₂, hhistory₂⟩ :=
      PassesOver.runs r (s := { s with report := report₀, history := history₀ }) hline' rest'
    rw [report_lines hedit] at hreport₂
    have hstate : edit.comparison.States s { s with report := report₂, history := history₂ } :=
      ⟨report₂, history₂, rfl, hreport₂.trans hreport₀, hhistory₂.trans hhistory₀⟩
    exact .of_eq rfl hrun₂ (ih hstate rfl)

/-- Whether an edit leaves the same of two runs. -/
structure Agrees (edit : Edit) (first second : Outcome × RunState β σ) : Prop where
  /-- They end in the same way. -/
  outcome : edit.outcome second.1 = edit.outcome first.1
  /-- They leave the same state and history. -/
  state : edit.state second.2 = edit.state first.2

/-- An edit that changes neither numbers nor warnings leaves everything. -/
theorem Agrees.eq {first second : Outcome × RunState β σ}
    (h : Agrees { renumbers := false, rewarns := false } first second) : second = first := by
  have houtcome (outcome : Outcome) :
      Edit.outcome { renumbers := false, rewarns := false } outcome = outcome := by
    cases outcome with
    | failed error => cases error <;> rfl
    | _ => rfl
  have hevent (event : Event) :
      event? { renumbers := false, rewarns := false } event = some event := by
    cases event with
    | warn warning => cases warning <;> rfl
    | _ => rfl
  have hstate (s : RunState β σ) :
      Edit.state { renumbers := false, rewarns := false } s = s := by
    have hhistory : s.history.filterMap (event? { renumbers := false, rewarns := false }) =
        s.history := by
      rw [funext hevent, List.filterMap_some]
    rw [Edit.state, hhistory]
    rfl
  obtain ⟨h₁, h₂⟩ := h
  rw [houtcome, houtcome] at h₁
  rw [hstate, hstate] at h₂
  exact Prod.ext h₁ h₂

/-- Runs of a script before and after an edit agree. -/
theorem Edited.agrees {script script' : Script} {s : RunState β σ}
    (h : edit.Edited s.core script.lines script'.lines)
    (hfailure : script'.failure = script.failure) :
    edit.Agrees (r.run script s) (r.run script' s) := by
  have hs : edit.comparison.States s s := ⟨s.report, s.history, rfl, rfl, rfl⟩
  have hscript : edit.comparison.AlikeAt Eq (r.runScript script) (r.runScript script') s s := by
    refine (h.alike r hs rfl).bind fun _ t t' _ ht => ?_
    rw [hfailure]
    exact Comparison.Alike.check script.failure edit.comparison.io t t' ht
  obtain ⟨houtcome, hstate⟩ := Comparison.run_alike r hscript
  exact ⟨outcome_eq houtcome, state_eq hstate⟩

/-- Lines that are kept may come before. -/
theorem Edited.prepend {core : Core} {before rest rest' : List Line}
    (h : edit.Edited (core.after (before.map Line.text)) rest rest') :
    edit.Edited core (before ++ rest) (before ++ rest') := by
  induction before generalizing core with
  | nil => exact h
  | cons line before ih => exact .kept rfl (ih h)

/-- Lines are kept that are the same up to their numbers. -/
theorem Edited.of_lines {core : Core} {lines lines' : List Line}
    (h : lines'.map edit.line = lines.map edit.line) : edit.Edited core lines lines' := by
  induction lines generalizing core lines' with
  | nil =>
    cases List.map_eq_nil_iff.mp h
    exact .nil
  | cons line rest ih =>
    cases lines' with
    | nil => cases h
    | cons line' rest' =>
      rw [List.map_cons, List.map_cons, List.cons.injEq] at h
      exact .kept h.1 (ih h.2)

/-- What stands in a skipped block may be replaced, and also be of another length if
numbers do not count. -/
theorem Edited.refill {core : Core} {block block' rest rest' : List Line}
    (hskip : core.skipping = true)
    (hends : ∀ line ∈ block ++ block',
      Directive.beginsWith Directive.endSkipMarker line.text.toList = false)
    (hlength : edit.renumbers = true ∨ block'.length = block.length)
    (h : edit.Edited core rest rest') :
    edit.Edited core (block ++ rest) (block' ++ rest') := by
  have hpass (line : Line) (hmem : line ∈ block ++ block') : edit.PassesOver core line.text :=
    .inl (Directive.classify_eq_ignored_iff.mpr ⟨hends line hmem, .inl hskip⟩)
  clear hends
  induction block generalizing block' with
  | nil =>
    induction block' with
    | nil => exact h
    | cons line' block' ih =>
      have hedit : edit.renumbers = true := hlength.resolve_right nofun
      refine .inserted hedit (hpass line' List.mem_cons_self) (ih (.inl hedit) ?_)
      exact fun line hmem => hpass line (List.mem_cons_of_mem _ hmem)
  | cons line block ih =>
    have hline := hpass line List.mem_cons_self
    cases block' with
    | nil =>
      have hedit : edit.renumbers = true := hlength.resolve_right nofun
      refine .deleted hedit hline (ih (.inl hedit) ?_)
      exact fun line hmem => hpass line (List.mem_cons_of_mem _ hmem)
    | cons line' block' =>
      have hline' := hpass line' (List.mem_append_right _ List.mem_cons_self)
      refine .replaced hline hline' (ih ?_ ?_)
      · exact hlength.imp_right Nat.succ.inj
      · intro other hmem
        refine hpass other ?_
        rcases List.mem_append.mp hmem with hmem | hmem
        · exact List.mem_append_left _ (List.mem_cons_of_mem _ hmem)
        · exact List.mem_append_right _ (List.mem_cons_of_mem _ hmem)

/-- Scripts are edited that differ in what stands in a skipped block. -/
theorem Edited.of_block {core : Core} {before block block' after after' : List Line} {start : Line}
    (hstart : Directive.classify start.text (core.after (before.map Line.text)).skipping =
      .ok .startSkip)
    (hends : ∀ line ∈ block ++ block',
      Directive.beginsWith Directive.endSkipMarker line.text.toList = false)
    (hlength : edit.renumbers = true ∨ block'.length = block.length)
    (hafter : after'.map edit.line = after.map edit.line) :
    edit.Edited core (before ++ start :: (block ++ after))
      (before ++ start :: (block' ++ after')) := by
  refine .prepend (.kept rfl (.refill ?_ hends hlength (.of_lines hafter)))
  rw [Core.step, hstart]
  rfl

end Edit

namespace Runner

variable {β σ : Type}

/-- Lines that are passed over where they stand do not interfere. If they are changed,
the run stays what it was but for the warnings; if they are taken out or put in, also
but for the count of lines and for line numbers. What stands in a skipped block has no
effect: with as many other lines in their place the run is the very same, and with
more of them or fewer it differs in that count and in line numbers only. -/
theorem run_passesOver (r : Runner β σ) (script script' : Script) (s : RunState β σ)
    (hfailure : script'.failure = script.failure) :
    (∀ edit : Edit, edit.Edited s.core script.lines script'.lines →
      edit.Agrees (r.run script s) (r.run script' s)) ∧
    ∀ before start block block' after after',
      script.lines = before ++ start :: (block ++ after) →
      script'.lines = before ++ start :: (block' ++ after') →
      Directive.classify start.text (s.core.after (before.map Line.text)).skipping =
        .ok .startSkip →
      (∀ line ∈ block ++ block',
        Directive.beginsWith Directive.endSkipMarker line.text.toList = false) →
      (block'.length = block.length → after' = after → r.run script' s = r.run script s) ∧
      (after'.map Line.text = after.map Line.text →
        Edit.Agrees { renumbers := true, rewarns := false } (r.run script s)
          (r.run script' s)) := by
  refine ⟨fun edit h => h.agrees r hfailure, ?_⟩
  intro before start block block' after after' hlines hlines' hstart hends
  constructor
  · rintro hlength rfl
    refine Edit.Agrees.eq (Edit.Edited.agrees r ?_ hfailure)
    rw [hlines, hlines']
    exact .of_block hstart hends (.inr hlength) rfl
  · intro hafter
    refine Edit.Edited.agrees r ?_ hfailure
    rw [hlines, hlines']
    refine .of_block hstart hends (.inl rfl) ?_
    have htexts := congrArg (List.map fun text => Line.mk 0 text) hafter
    rwa [List.map_map, List.map_map] at htexts

/-- A script whose first line, an unusable directive, is passed over. -/
def incompleteEnv : Script := ⟨"/", [⟨1, "ENV x"⟩, ⟨2, "RESTART"⟩, ⟨3, "hello"⟩], none⟩

/-- A line with an unusable directive can be made a comment or be taken out, and a
skipped restart does nothing. -/
theorem run_passesOver_of_incomplete_env :
    (planned.run incompleteEnv (.planned [{}])).1 =
      .finished { lines := 3, restarts := 1, sent := 1, warnings := 1 } ∧
    Edit.Agrees { renumbers := false, rewarns := true }
      (planned.run incompleteEnv (.planned [{}]))
      (planned.run ⟨"/", [⟨1, "# x"⟩, ⟨2, "RESTART"⟩, ⟨3, "hello"⟩], none⟩ (.planned [{}])) ∧
    Edit.Agrees { renumbers := true, rewarns := true }
      (planned.run incompleteEnv (.planned [{}]))
      (planned.run ⟨"/", [⟨1, "RESTART"⟩, ⟨2, "hello"⟩], none⟩ (.planned [{}])) ∧
    planned.run ⟨"/", [⟨1, "START_SKIP"⟩, ⟨2, "hello"⟩, ⟨3, "END_SKIP"⟩], none⟩ (.planned [{}]) =
      planned.run ⟨"/", [⟨1, "START_SKIP"⟩, ⟨2, "RESTART"⟩, ⟨3, "END_SKIP"⟩], none⟩
        (.planned [{}]) := by
  have hincomplete : Directive.classify "ENV x" false = .error (.envIncomplete "x") := rfl
  have hcomment : Directive.classify "# x" false = .ok .ignored := rfl
  refine ⟨by decide +kernel, (run_passesOver planned _ _ _ (by rfl)).1 _ ?_,
    (run_passesOver planned _ _ _ (by rfl)).1 _ ?_,
    ((run_passesOver planned _ _ _ (by rfl)).2 [] ⟨1, "START_SKIP"⟩ [⟨2, "RESTART"⟩]
      [⟨2, "hello"⟩] [⟨3, "END_SKIP"⟩] _ (by rfl) (by rfl) (by rfl) (by decide)).1 rfl rfl⟩
  · exact .replaced (.inr ⟨rfl, _, hincomplete⟩) (.inl hcomment) (.of_lines rfl)
  · exact .deleted rfl (.inr ⟨rfl, _, hincomplete⟩) (.of_lines rfl)

end Runner

end LineScript
