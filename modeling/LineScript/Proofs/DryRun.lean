import LineScript.DryRun
import LineScript.Proofs.Delivery
import LineScript.Proofs.Patience

/-!
# Dry runs agree with real runs

A dry run knows about a child only by the number of restarts that it has counted;
a real run has a child or has none. As long as no call fails the two tell the
same, line by line, and so they count and list the same. What is listed is
written, a line for each entry, and each line tells what its entry brings to a
child. Main result: with a host whose starts, sends and teardowns succeed and
whose drains end, and with sinks that never fail, both end alike, and what is
listed is what is started and sent. A run that fails has counted no more than the
dry run.
-/

namespace LineScript

namespace Report

/-- The counters of a dry run, which copies no output. -/
def withoutEchoes (report : Report) : Report := { report with echoed := 0 }

/-- Whether no counter of a dry run falls short of the same counter of a run. -/
structure AtMost (report listed : Report) : Prop where
  /-- Lines read. -/
  lines : report.lines ≤ listed.lines
  /-- Children started. -/
  restarts : report.restarts ≤ listed.restarts
  /-- Lines handed to a child. -/
  sent : report.sent ≤ listed.sent
  /-- Lines without a child. -/
  dropped : report.dropped ≤ listed.dropped
  /-- Directives passed over. -/
  warnings : report.warnings ≤ listed.warnings

/-- Counters are at most themselves. -/
theorem AtMost.refl (report : Report) : report.AtMost report :=
  ⟨Nat.le_refl _, Nat.le_refl _, Nat.le_refl _, Nat.le_refl _, Nat.le_refl _⟩

/-- Counters may be compared in two steps. -/
theorem AtMost.trans {first second third : Report} (h : first.AtMost second)
    (h' : second.AtMost third) : first.AtMost third :=
  ⟨Nat.le_trans h.lines h'.lines, Nat.le_trans h.restarts h'.restarts, Nat.le_trans h.sent h'.sent,
    Nat.le_trans h.dropped h'.dropped, Nat.le_trans h.warnings h'.warnings⟩

end Report

/-- What a call brings, whoever gets it. -/
def Delivery.content : Delivery → Environment ⊕ String
  | .start _ env => .inl env
  | .send _ text => .inr text

/-- What an entry says is brought to a child. -/
def DryRunItem.content? : DryRunItem → Option (Environment ⊕ String)
  | .restart env => some (.inl env)
  | .send text => some (.inr text)
  | _ => none

/-- What the text of an entry says that a child gets: the variables that it is started with,
or a line. Any other text begins in another way. -/
inductive DryRunItem.Tells : String → Option (Environment ⊕ String) → Prop
  /-- A child is started. -/
  | restart (env : Environment) :
      Tells ("RESTART env [" ++
        ", ".intercalate (env.entries.map fun entry => entry.1 ++ "=" ++ entry.2) ++ "]")
        (some (.inl env))
  /-- A line is sent. -/
  | send (text : String) : Tells ("send " ++ text) (some (.inr text))
  /-- No child gets anything. -/
  | neither {said : String} (hrestart : ¬ "RESTART".toList <+: said.toList)
      (hsend : ¬ "send ".toList <+: said.toList) : Tells said none

/-- The text of an entry tells what the entry brings to a child. -/
theorem DryRunItem.tells_text (item : DryRunItem) : Tells item.text item.content? := by
  cases item with
  | restart env => exact .restart env
  | send text => exact .send text
  | skipMode on => cases on <;> exact .neither (by decide) (by decide)
  | drop text =>
    have htext : (drop text).text = "drop " ++ text ++ " (no child yet)" := rfl
    exact .neither (by simp [htext]) (by simp [htext])
  | delay duration =>
    have hshown (seconds : String) : Tells s!"delay {seconds}s" none := by
      have htext : s!"delay {seconds}s" = "delay " ++ seconds ++ "s" := rfl
      exact .neither (by simp [htext]) (by simp [htext])
    exact hshown _
  | malformed reason =>
    have hshown (message : String) : Tells s!"skipped: {message}" none := by
      have htext : s!"skipped: {message}" = "skipped: " ++ message := rfl
      exact .neither (by simp [htext]) (by simp [htext])
    exact hshown _

namespace DryRun

/-- Counting a command takes nothing back. -/
theorem atMost_countCommand (report : Report) (command : Command) :
    report.AtMost (countCommand report command) := by
  rw [countCommand]
  cases item? report command with
  | none => exact .refl report
  | some item => cases item <;> constructor <;> simp [DryRunItem.countIn]

/-- Going through lines takes nothing back. -/
theorem atMost_walk (core : Core) (report : Report) (lines : List Line) :
    report.AtMost (walk core report lines).2 := by
  induction lines generalizing core report with
  | nil => exact .refl report
  | cons line rest ih =>
    have hread : report.AtMost { report with lines := report.lines + 1 } :=
      ⟨Nat.le_succ _, Nat.le_refl _, Nat.le_refl _, Nat.le_refl _, Nat.le_refl _⟩
    exact (hread.trans (atMost_countCommand _ _)).trans (ih _ _)

/-- A command is listed with what it brings to a child. -/
theorem content_item? (report : Report) (command : Command) :
    ((item? report command).bind DryRunItem.content?).toList =
      (command.deliveries report.restarts).map Delivery.content := by
  cases command with
  | send text =>
    rw [item?]
    cases report.restarts <;> rfl
  | _ => rfl

/-- Restarts are counted as children are started. -/
theorem restarts_countCommand (report : Report) (command : Command) :
    (countCommand report command).restarts = command.startedAfter report.restarts := by
  cases command with
  | send text =>
    rw [countCommand, item?]
    cases report.restarts != 0 <;> rfl
  | _ => rfl

/-- What is listed as brought to children is what the commands ask for. -/
theorem content_walk (core : Core) (report : Report) (lines : List Line) :
    (walk core report lines).1.filterMap (fun entry => entry.2.content?) =
      (scheduled report.restarts (core.commands (lines.map Line.text))).map Delivery.content := by
  induction lines generalizing core report with
  | nil => rfl
  | cons line rest ih =>
    rw [walk, List.filterMap_append, ih, restarts_countCommand, List.map_cons, Core.commands,
      scheduled, List.map_append]
    congr 1
    have hitem := content_item? { report with lines := report.lines + 1 } (core.step line.text).1
    rw [← hitem]
    cases item? { report with lines := report.lines + 1 } (core.step line.text).1 with
    | none => rfl
    | some item => cases h : item.content? <;> simp [h]

/-- Lines that come later are listed as lines of their own, with the core and the counters that
the first lines leave. -/
theorem walk_append (core : Core) (report : Report) (first second : List Line) :
    (walk core report (first ++ second)).1 = (walk core report first).1 ++
      (walk (core.after (first.map Line.text)) (walk core report first).2 second).1 := by
  induction first generalizing core report with
  | nil => rfl
  | cons line rest ih =>
    rw [List.cons_append, walk, ih, walk, List.append_assoc]
    rfl

/-- A sink that never fails takes any number of texts. -/
theorem writeAll_works {τ : Type} {sink : Sink τ} {s : τ} (hworks : sink.Works s)
    (texts : List String) :
    (writeAll sink s texts).2 = none ∧ sink.Works (writeAll sink s texts).1 := by
  induction texts generalizing s with
  | nil => exact ⟨rfl, hworks⟩
  | cons text rest ih =>
    obtain ⟨hnone, hnext⟩ := hworks.write text
    rw [writeAll]
    rcases hwrite : sink.write s text with ⟨s', failure⟩
    rw [hwrite] at hnone hnext
    cases hnone
    exact ih hnext

/-- A sink that never fails shows all texts, after what it showed before. -/
theorem contents_writeAll {τ : Type} {sink : Sink τ} {contents : τ → Bytes}
    (hshows : sink.Shows contents) {s : τ} (hworks : sink.Works s) (texts : List String) :
    contents (writeAll sink s texts).1 = contents s ++ texts.flatMap Utf8.ofString := by
  induction texts generalizing s with
  | nil => exact (List.append_nil _).symm
  | cons text rest ih =>
    obtain ⟨hnone, hnext⟩ := hworks.write text
    have htaken := hshows.write s text hnone
    rw [writeAll]
    rcases hwrite : sink.write s text with ⟨s', failure⟩
    rw [hwrite] at hnone hnext htaken
    cases hnone
    rw [ih hnext, htaken, List.flatMap_cons, List.append_assoc]

/-- What a dry run writes to a sink that never fails is its header and a line for each entry,
also if reading the script fails. -/
theorem contents_run {τ : Type} {sink : Sink τ} {contents : τ → Bytes}
    (hshows : sink.Shows contents) {s : τ} (hworks : sink.Works s) (script : Script) :
    contents (run sink script s).2 = contents s ++ (texts script).flatMap Utf8.ofString := by
  have hnone := (writeAll_works hworks (texts script)).1
  rw [← contents_writeAll hshows hworks (texts script)]
  rcases hwrite : writeAll sink s (texts script) with ⟨s', failure⟩
  rw [hwrite] at hnone
  cases hnone
  cases hread : script.failure with
  | some fault => simp only [run, hwrite, hread]
  | none =>
    -- The closing flush adds nothing, and it does not matter here whether it fails.
    have hkept := hshows.flush s'
    rcases hlast : sink.flush s' with ⟨s'', failure⟩
    rw [hlast] at hkept
    cases failure <;> simpa only [run, hwrite, hread, hlast] using hkept

/-- What is listed for the first lines is written first, and then what is listed for the others. -/
theorem contents_run_append {τ : Type} {sink : Sink τ} {contents : τ → Bytes}
    (hshows : sink.Shows contents) {s : τ} (hworks : sink.Works s) {script : Script}
    {first second : List Line} (h : script.lines = first ++ second) :
    contents (run sink script s).2 = contents (run sink ⟨script.baseDir, first, none⟩ s).2 ++
      ((walk (Core.after {} (first.map Line.text)) (walk {} {} first).2 second).1.map fun entry =>
        entryLine entry.1 entry.2).flatMap Utf8.ofString := by
  rw [contents_run hshows hworks, contents_run hshows hworks, texts, texts, listing, listing, h,
    walk_append, List.map_append, ← List.cons_append, List.flatMap_append, List.append_assoc]

/-- On a sink that never fails, reading decides how a dry run ends. -/
theorem run_works {τ : Type} {sink : Sink τ} {s : τ} (hworks : sink.Works s) (script : Script) :
    (run sink script s).1 = match script.failure with
      | none => .ok (report script)
      | some fault => .error (.io fault) := by
  obtain ⟨hnone, hnext⟩ := writeAll_works hworks (texts script)
  rcases hwrite : writeAll sink s (texts script) with ⟨s', failure⟩
  rw [hwrite] at hnone hnext
  cases hnone
  cases hread : script.failure with
  | some fault => simp only [run, hwrite, hread]
  | none =>
    obtain ⟨hflush, _⟩ := hnext.flush
    rcases hlast : sink.flush s' with ⟨s'', failure⟩
    rw [hlast] at hflush
    cases hflush
    simp only [run, hwrite, hread, hlast]

/-- A dry run that is done gives what it counted. -/
theorem eq_report_of_run {τ : Type} {sink : Sink τ} {s : τ} {script : Script} {listed : Report}
    (h : (run sink script s).1 = .ok listed) : listed = report script := by
  rcases hwrite : writeAll sink s (texts script) with ⟨s', failure⟩
  simp only [run, hwrite] at h
  cases failure with
  | some fault => cases h
  | none =>
    cases hread : script.failure with
    | some fault =>
      rw [hread] at h
      cases h
    | none =>
      rcases hflush : sink.flush s' with ⟨s'', failure⟩
      simp only [hread, hflush] at h
      cases failure with
      | some fault => cases h
      | none =>
        cases h
        rfl

end DryRun

/-- Whether the number of restarts tells if there is a child. -/
def Books.Linked (books : Books) : Prop := books.child.isSome = (books.report.restarts != 0)

/-- Whether no call of the host reports a failure. -/
def HostSucceeds (events : List Event) : Prop :=
  ∀ event ∈ events, event.isHostCall = true → event.fault? = none

instance (events : List Event) : Decidable (HostSucceeds events) :=
  inferInstanceAs (Decidable (∀ event ∈ events, event.isHostCall = true → event.fault? = none))

/-- Whether an event is a poll. -/
def Event.isPoll : Event → Bool
  | .poll .. => true
  | _ => false

namespace Runner

open DryRun

variable {β σ : Type} {r : Runner β σ}

/-- A command counts what a dry run counts for it, or nothing if it fails. -/
theorem Executed.counts {line : Line} {command : Command} {books books' : Books}
    {events : List Event} {result : Except Halt Unit} (hlinked : books.Linked)
    (h : r.Executed line command books events result books') :
    books'.report.withoutEchoes = countCommand books.report.withoutEchoes command ∨
      books'.report = books.report ∧ ∃ error, result = .error (.failed error) := by
  cases h with
  | unended => exact .inr ⟨rfl, _, rfl⟩
  | unstarted => exact .inr ⟨rfl, _, rfl⟩
  | unwritten => exact .inr ⟨rfl, _, rfl⟩
  | unflushed => exact .inr ⟨rfl, _, rfl⟩
  | refused => exact .inr ⟨rfl, _, rfl⟩
  | dropped hchild =>
    left
    have hnone : (books.report.restarts != 0) = false := by
      rw [← hlinked, hchild]
      rfl
    simp only [countCommand, item?, Report.withoutEchoes, hnone]
    rfl
  | sent hchild hdrained =>
    left
    have hsome : (books.report.restarts != 0) = true := by
      rw [← hlinked, hchild]
      rfl
    rw [hdrained.books_eq]
    simp only [countCommand, item?, Report.withoutEchoes, hsome]
    rfl
  | _ => exact .inl rfl

/-- After a command that is carried out, the number of restarts still tells if
there is a child. -/
theorem Executed.linked {line : Line} {command : Command} {books books' : Books}
    {events : List Event} (hlinked : books.Linked)
    (h : r.Executed line command books events (.ok ()) books') : books'.Linked := by
  generalize hresult : Except.ok () = result at h
  cases h with
  | unended => cases hresult
  | unstarted => cases hresult
  | restarted => rfl
  | sent _ hdrained =>
    rw [hdrained.books_eq]
    exact hlinked
  | _ => exact hlinked

/-- A line counts itself, and what a dry run counts for its command unless it fails. -/
theorem Carried.counts {line : Line} {s s' : RunState β σ} {events : List Event}
    {result : Except Halt Unit} (hlinked : s.books.Linked)
    (h : r.Carried line s events result s') :
    s'.report.withoutEchoes = countCommand
        { s.report.withoutEchoes with lines := s.report.withoutEchoes.lines + 1 }
        (s.core.step line.text).1 ∨
      s'.report.withoutEchoes =
        { s.report.withoutEchoes with lines := s.report.withoutEchoes.lines + 1 } ∧
        ∃ error, result = .error (.failed error) := by
  have hread : (s.books.readLine line.text).Linked := hlinked
  rcases h.rule.counts hread with hcount | ⟨hcount, hfailed⟩
  · exact .inl hcount
  · exact .inr ⟨congrArg Report.withoutEchoes hcount, hfailed⟩

/-- Lines that are carried out count what a dry run counts for them. -/
theorem Performed.counts {s s' : RunState β σ} {lines : List Line} {events : List Event}
    (hlinked : s.books.Linked) (h : r.Performed s lines events (.ok ()) s') :
    s'.report.withoutEchoes = (walk s.core s.report.withoutEchoes lines).2 := by
  generalize hresult : Except.ok () = result at h
  induction h with
  | nil => rfl
  | stopped => cases hresult
  | @cons s line rest events events' result s₁ s₂ hline _ ih =>
    have hread : (s.books.readLine line.text).Linked := hlinked
    have hcore : s₁.core = (s.core.step line.text).2 := hline.rule.core_eq
    have hlater := ih (hline.rule.linked hread) hresult
    rcases hline.counts hlinked with hcount | ⟨_, _, hfailed⟩
    · rw [hlater, hcore, hcount]
      rfl
    · cases hfailed

/-- Lines count no more than a dry run counts for them. -/
theorem Performed.counts_atMost {s s' : RunState β σ} {lines : List Line} {events : List Event}
    {result : Except Halt Unit} (hlinked : s.books.Linked)
    (h : r.Performed s lines events result s') :
    s'.report.withoutEchoes.AtMost (walk s.core s.report.withoutEchoes lines).2 := by
  induction h with
  | nil => exact .refl _
  | @stopped s line rest events halt s' hline =>
    -- The line that fails may count less than the dry run, which goes on after it.
    refine Report.AtMost.trans ?_ (atMost_walk _ _ rest)
    rcases hline.counts hlinked with hcount | ⟨hcount, _⟩
    · rw [hcount]
      exact .refl _
    · rw [hcount]
      exact atMost_countCommand _ _
  | @cons s line rest events events' result s₁ s₂ hline _ ih =>
    have hread : (s.books.readLine line.text).Linked := hlinked
    have hcore : s₁.core = (s.core.step line.text).2 := hline.rule.core_eq
    have hlater := ih (hline.rule.linked hread)
    rcases hline.counts hlinked with hcount | ⟨_, _, hfailed⟩
    · rw [hcore, hcount] at hlater
      exact hlater
    · cases hfailed

/-- A drain that does not come to an end has polled as often as it may. -/
theorem Drained.patience_le {child left : Nat} {books books' : Books} {events : List Event}
    (h : r.Drained child left books events (.error .unfinished) books') :
    left ≤ events.countP Event.isPoll := by
  generalize hresult : Except.error Halt.unfinished = result at h
  induction h with
  | exhausted => exact Nat.zero_le _
  | @quiet left books outcome failure => cases failure <;> cases hresult
  | unwritten => cases hresult
  | @exited left books output failure => cases failure <;> cases hresult
  | more _ ih =>
    have hle := ih hresult
    simp only [List.countP_cons, Event.isPoll]
    simp only [if_true, Bool.false_eq_true, if_false]
    omega

/-- A command that does not come to an end has polled as often as it may. -/
theorem Executed.patience_le {line : Line} {command : Command} {books books' : Books}
    {events : List Event} (h : r.Executed line command books events (.error .unfinished) books') :
    r.patience ≤ events.countP Event.isPoll := by
  generalize hresult : Except.error Halt.unfinished = result at h
  cases h with
  | sent _ hdrained =>
    cases hresult
    exact hdrained.patience_le
  | @skipMode on books failure => cases failure <;> cases hresult
  | _ => cases hresult

/-- A script that does not come to an end has polled as often as one drain may. -/
theorem Performed.patience_le {s s' : RunState β σ} {lines : List Line} {events : List Event}
    (h : r.Performed s lines events (.error .unfinished) s') :
    r.patience ≤ events.countP Event.isPoll := by
  obtain ⟨_, _, _, first, own, _, _, rfl, _, hline⟩ := h.stop_cases
  have hown := hline.rule.patience_le
  rw [List.countP_append]
  omega

/-- A run with fewer polls than one drain may make comes to an end. -/
theorem Ran.over_of_polls_lt {script : Script} {s : RunState β σ} {books' : Books}
    {events : List Event} {outcome : Outcome} (h : r.Ran script s events outcome books')
    (hpolls : events.countP Event.isPoll < r.patience) : outcome ≠ .unfinished := by
  intro hend
  obtain ⟨work, result, s₁, hworked⟩ := h.worked
  cases hworked.unfinished hend
  have hpatience : r.patience ≤ work.countP Event.isPoll := hworked.performed.patience_le
  have hwork : work.countP Event.isPoll ≤ events.countP Event.isPoll :=
    hworked.isPrefix.sublist.countP_le
  omega

/-- However a fresh run ends, it has counted no more than a dry run does. -/
theorem Ran.counts_atMost {script : Script} {host : β} {sink : σ} {books' : Books}
    {events : List Event} {outcome : Outcome}
    (h : r.Ran script { host, sink } events outcome books') :
    books'.report.AtMost (DryRun.report script) := by
  obtain ⟨_, _, s₁, hworked⟩ := h.worked
  have hlinked : (RunState.books ({ host, sink } : RunState β σ)).Linked := rfl
  have hatMost : s₁.report.withoutEchoes.AtMost (DryRun.report script) :=
    hworked.performed.counts_atMost hlinked
  rw [hworked.report_eq]
  exact ⟨hatMost.lines, hatMost.restarts, hatMost.sent, hatMost.dropped, hatMost.warnings⟩

/-- How a run and a dry run end alike: both with their reports, which differ in
the echoes only, or both with the same failure of input or output. -/
inductive EndAlike : Outcome → Except RunError Report → Prop
  /-- Both are done. -/
  | done (report : Report) : EndAlike (.finished report) (.ok report.withoutEchoes)
  /-- Both fail. -/
  | broken (fault : Fault) : EndAlike (.failed (.io fault)) (.error (.io fault))

/-- A fresh run that is over and whose calls all went well agrees with the dry run. -/
theorem Ran.agrees {τ : Type} {script : Script} {host : β} {sink : σ} {books' : Books}
    {events : List Event} {outcome : Outcome} {listing : Sink τ} {page : τ}
    (h : r.Ran script { host, sink } events outcome books') (hover : outcome ≠ .unfinished)
    (hfaultless : Faultless events) (hpage : listing.Works page) :
    EndAlike outcome (DryRun.run listing script page).1 ∧
      (deliveries events).map Delivery.content =
        (DryRun.listing script).filterMap fun entry => entry.2.content? := by
  have houtcome := h.outcome_of_faultless hover hfaultless
  obtain ⟨work, result, s₁, hworked⟩ := h.worked
  have hlines := hworked.performed
  have hwork : Faultless work := fun event hmem =>
    hfaultless event (hworked.isPrefix.subset hmem)
  have hdone : result = .ok () := by
    cases hend : outcome with
    | unfinished => exact absurd hend hover
    | finished report => exact hworked.finished report hend
    | failed error =>
      rcases hworked.failed error hend with hok | rfl
      · exact hok
      · exact absurd hwork hlines.not_faultless
  cases hdone
  constructor
  · have hcounts : books'.report.withoutEchoes = DryRun.report script := by
      have hlinked : (RunState.books ({ host, sink } : RunState β σ)).Linked := rfl
      rw [hworked.report_eq]
      exact hlines.counts hlinked
    rw [houtcome, run_works hpage, ← hcounts]
    cases script.failure with
    | none => exact .done _
    | some fault => exact .broken fault
  · rw [hworked.delivered, (hlines.delivers rfl).1]
    exact (content_walk {} {} script.lines).symm

/-- With a host whose starts, sends and teardowns succeed and whose drains end, and
with sinks that never fail, a fresh run and a dry run end alike, and what is listed
is what is started and sent. The listing is written as the header and a line for each
entry, under the number of its line, that tells what the entry brings to a child.
However a run ends, it has counted no more than a dry run does. -/
theorem dryRun_agrees {τ : Type} (r : Runner β σ) (script : Script) (listing : Sink τ) (host : β)
    (sink : σ) (page : τ) :
    (r.sink.Works sink → listing.Works page →
      (∀ patience, HostSucceeds ((r.withPatience patience).run script { host, sink }).2.events) →
      (∃ polls, ∀ patience,
        ((r.withPatience patience).run script { host, sink }).2.events.countP Event.isPoll ≤
          polls) →
      ∃ enough, ∀ patience, enough ≤ patience →
        EndAlike ((r.withPatience patience).run script { host, sink }).1
          (DryRun.run listing script page).1 ∧
        (deliveries ((r.withPatience patience).run script { host, sink }).2.events).map
            Delivery.content =
          (DryRun.listing script).filterMap fun entry => entry.2.content?) ∧
    (∀ contents : τ → Bytes, listing.Shows contents → listing.Works page →
      contents (DryRun.run listing script page).2 = contents page ++
        (DryRun.header script.baseDir :: (DryRun.listing script).map fun entry =>
          DryRun.entryLine entry.1 entry.2).flatMap Utf8.ofString) ∧
    (∀ entry ∈ DryRun.listing script, ∃ said,
      DryRun.entryLine entry.1 entry.2 = DryRun.column entry.1 ++ ": " ++ said ++ "\n" ∧
        DryRunItem.Tells said entry.2.content?) ∧
    (r.run script { host, sink }).2.report.AtMost (DryRun.report script) ∧
    ∀ listed, (DryRun.run listing script page).1 = .ok listed → listed = DryRun.report script := by
  refine ⟨?_, fun contents hshows hpage => contents_run hshows hpage script,
    fun entry _ => ⟨_, rfl, entry.2.tells_text⟩, ?_, ?_⟩
  · intro hsink hpage hcalls hdrains
    obtain ⟨polls, hdrains⟩ := hdrains
    refine ⟨polls + 1, fun patience hpatience => ?_⟩
    specialize hcalls patience
    specialize hdrains patience
    rcases hrun : (r.withPatience patience).run script { host, sink } with ⟨outcome, s⟩
    obtain ⟨events, hevents, htalk, hran⟩ := ran_of_run hrun
    have hall : s.events = events := hevents
    rw [hrun, hall] at hcalls hdrains
    rw [hall]
    have hfaultless : Faultless events := by
      intro event hmem
      cases hcall : event.isHostCall with
      | true => exact hcalls event hmem hcall
      | false => exact htalk.sink_faultless hsink event hmem hcall
    have hover : outcome ≠ .unfinished :=
      hran.over_of_polls_lt (Nat.lt_of_le_of_lt hdrains hpatience)
    exact hran.agrees hover hfaultless hpage
  · rcases hrun : r.run script { host, sink } with ⟨outcome, s⟩
    obtain ⟨events, _, _, hran⟩ := ran_of_run hrun
    exact hran.counts_atMost
  · exact fun listed hlisted => eq_report_of_run hlisted

/-- A script with a text before its first restart, and with a variable. -/
def earlyText : Script :=
  ⟨"/", [⟨1, "early"⟩, ⟨2, "ENV GREETING hi"⟩, ⟨3, "RESTART"⟩, ⟨4, "hello"⟩], none⟩

/-- A child that answers a text with one line of output. -/
def answering : List ChildPlan := [{ replies := [[.line "hi"]] }]

/-- The text before the restart is dropped by both, and the other one is answered. -/
theorem dryRun_agrees_with_answering_child :
    (∃ enough, ∀ patience, enough ≤ patience →
      EndAlike ((planned.withPatience patience).run earlyText (.planned answering)).1
          (DryRun.run LimitedSink.sink earlyText {}).1 ∧
        (deliveries
            ((planned.withPatience patience).run earlyText (.planned answering)).2.events).map
          Delivery.content = [.inl (Environment.empty.set "GREETING" "hi"), .inr "hello"]) ∧
    (DryRun.run LimitedSink.sink earlyText {}).2.written =
      Utf8.ofString ("tester dry-run (base dir /)\n   1: drop early (no child yet)\n" ++
        "   3: RESTART env [GREETING=hi]\n   4: send hello\n") := by
  have hends : (planned.run earlyText (.planned answering)).1 ≠ .unfinished := by
    decide +kernel
  have hfew : ∀ patience ≤ 3,
      HostSucceeds ((planned.withPatience patience).run earlyText (.planned answering)).2.events ∧
      ((planned.withPatience patience).run earlyText
        (.planned answering)).2.events.countP Event.isPoll ≤ 2 := by
    decide +kernel
  have hall := forall_run_withPatience (P := fun result =>
    HostSucceeds result.2.events ∧ result.2.events.countP Event.isPoll ≤ 2) hends hfew
  have hworks : LimitedSink.sink.Works {} := LimitedSink.works rfl rfl
  have hlisting : (DryRun.listing earlyText).filterMap (fun entry => entry.2.content?) =
      [.inl (Environment.empty.set "GREETING" "hi"), .inr "hello"] := by
    decide +kernel
  obtain ⟨hagree, hwrites, -⟩ :=
    dryRun_agrees planned earlyText LimitedSink.sink { coming := answering } {} {}
  obtain ⟨enough, hagree⟩ := hagree hworks hworks (fun patience => (hall patience).1)
    ⟨2, fun patience => (hall patience).2⟩
  have hwritten := hwrites LimitedSink.written LimitedSink.shows_written hworks
  refine ⟨⟨enough, fun patience hpatience => ?_⟩, hwritten.trans (by decide +kernel)⟩
  rw [← hlisting]
  exact hagree patience hpatience

end Runner

end LineScript
