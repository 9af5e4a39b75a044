import LineScript.Proofs.EchoDrains

/-!
# Children that take a limited number of texts

Children that echo and take at most `n` texts each. Over a readable script and a sink that never
fails nothing but a text can fail, and a text fails exactly if its child has taken `n` texts before.
Main result: a run fails if and only if some child is to get more than `n` texts, it stops at the
first text too many for the first such child, and every child has taken the first `n` texts that
are for it.
-/

namespace LineScript

/-- The texts for a child among two lists of commands: those among the first ones, and then those
among the second ones, if it was not replaced by then. -/
theorem textsAfter_append_eq {first : List Command} {started : Nat}
    (h : first.foldl (fun started command => command.startedAfter started) 0 = started)
    (second : List Command) (child : Nat) :
    textsAfter (child + 1) (first ++ second) =
      textsAfter (child + 1) first ++
        if started ≤ child + 1 then textsAfter (child + 1 - started) second else [] := by
  have hall := texts_scheduled 0 child (first ++ second)
  have hfirst := texts_scheduled 0 child first
  have hsecond := texts_scheduled started child second
  rw [if_pos (Nat.zero_le _), Nat.sub_zero] at hall hfirst
  rw [← hall, scheduled_append, h, List.filterMap_append, hfirst, hsecond]

/-- A text after commands that start a child last is one more for that child, and the children
before it get what they get from these commands. -/
theorem textsAfter_send {first : List Command} {child : Nat}
    (h : first.foldl (fun started command => command.startedAfter started) 0 = child + 1)
    (text : String) (rest : List Command) :
    (∀ number < child,
        textsAfter (number + 1) (first ++ .send text :: rest) = textsAfter (number + 1) first) ∧
      textsAfter (child + 1) (first ++ .send text :: rest) =
        textsAfter (child + 1) first ++ text :: textsAfter 0 rest := by
  refine ⟨fun number hlt => ?_, ?_⟩
  · rw [textsAfter_append_eq h, if_neg (by omega), List.append_nil]
  · rw [textsAfter_append_eq h, if_pos le_rfl, Nat.sub_self]
    rfl

/-- A line with a text for the child that the lines before it start last: this child gets the text
after those that the lines before have for it, and the children before it get no more than these
lines have for them. -/
theorem Core.textsAfter_of_send {core : Core} {before lines : List Line} {line : Line} {child : Nat}
    (hbegins : before ++ [line] <+: lines)
    (hstarted : ((core.commands (before.map Line.text)).filterMap Command.restart?).length =
      child + 1)
    (htext : ((core.after (before.map Line.text)).step line.text).1 = .send line.text) :
    (∀ number < child, textsAfter (number + 1) (core.commands (lines.map Line.text)) =
        textsAfter (number + 1) (core.commands (before.map Line.text))) ∧
      ∃ rest, textsAfter (child + 1) (core.commands (lines.map Line.text)) =
        textsAfter (child + 1) (core.commands (before.map Line.text)) ++ line.text :: rest := by
  obtain ⟨after, rfl⟩ := hbegins
  have hcount : (core.commands (before.map Line.text)).foldl
      (fun started command => command.startedAfter started) 0 = child + 1 := by
    rw [startedAfter_eq, hstarted, Nat.zero_add]
  rw [List.append_assoc, List.singleton_append, List.map_append, Core.commands_append,
    List.map_cons, Core.commands, htext]
  obtain ⟨hearlier, hlast⟩ := textsAfter_send hcount line.text
    (((core.after (before.map Line.text)).step line.text).2.commands (after.map Line.text))
  exact ⟨hearlier, _, hlast⟩

namespace EchoState

variable {s : EchoState} {options : EchoOptions} {k : Custody} {events : List Event}

/-- No child has accepted more texts than it may. -/
theorem Tracks.length_le (h : Tracks s options k events) {n : Nat}
    (hlimit : options.acceptLines = some n) (number : Nat) :
    (acceptedBy number events).length ≤ n := by
  rcases Nat.lt_or_ge number s.children.length with hlt | hge
  · exact (h.kept number _ (List.getElem?_eq_getElem hlt)).within n hlimit
  · rw [h.unstarted number (h.length_eq ▸ hge)]
    exact Nat.zero_le n

/-- The child in custody refuses a text only if it has taken as many as it may. -/
theorem Tracks.full_of_refused (h : Tracks s options k events) {number : Nat}
    (hlives : k.child = some number) (hends : options.exitAfterOutput = none) {text : String}
    {fault : Fault} (hrefused : (s.send number text).2 = some fault) :
    fault = inputClosed ∧ options.acceptLines = some (acceptedBy number events).length := by
  have hlt : number < s.children.length := (h.started number hlives).trans_eq h.length_eq.symm
  have hchild : s.children[number]? = some s.children[number] := List.getElem?_eq_getElem hlt
  have hkept := h.kept number _ hchild
  rw [EchoState.send, hchild, Option.bind_some] at hrefused
  cases htaken : s.children[number].send s.options text with
  | some child =>
    rw [htaken] at hrefused
    cases hrefused
  | none =>
    rw [htaken] at hrefused
    cases hrefused
    refine ⟨rfl, ?_⟩
    have hexited : s.children[number].hasExited s.options = false := by
      rw [EchoChild.hasExited, hkept.tornDown.mpr hlives, h.options_eq, hends]
      rfl
    have hfull : s.children[number].remaining = some 0 := by
      rw [EchoChild.send, hexited, Bool.false_or] at htaken
      split_ifs at htaken with hzero
      exact beq_iff_eq.mp hzero
    rw [hkept.remaining] at hfull
    obtain ⟨limit, hlimit, hzero⟩ := Option.map_eq_some_iff.mp hfull
    have hle := hkept.within limit hlimit
    rw [hlimit]
    exact congrArg some (by omega)

/-- The end of an echoing child never fails. -/
theorem teardown_eq (s : EchoState) (number : Nat) : (s.teardown number).2 = {} := by
  rw [EchoState.teardown]
  cases s.children[number]? with
  | none => rfl
  | some child =>
    dsimp only
    split_ifs <;> rfl

end EchoState

namespace Runner

variable {σ : Type} {sink : Sink σ} {pollTimeout : Duration} {patience : Nat}

/-- No call changes how children behave. -/
theorem options_after (p : Parties EchoState σ) (event : Event) :
    ((overEcho sink pollTimeout patience).after p event).host.options = p.host.options := by
  cases event with
  | start number env =>
    change (p.host.start number env).1.options = _
    rw [EchoState.start]
    split_ifs <;> rfl
  | send number text =>
    change (p.host.send number text).1.options = _
    rw [EchoState.send]
    cases p.host.children[number]?.bind (·.send p.host.options text) <;> rfl
  | poll number timeout =>
    change (p.host.poll number timeout).1.options = _
    rw [EchoState.poll]
    cases p.host.children[number]? <;> rfl
  | teardown number =>
    change (p.host.teardown number).1.options = _
    rw [EchoState.teardown]
    cases p.host.children[number]? with
    | none => rfl
    | some child =>
      dsimp only
      split_ifs <;> rfl
  | _ => rfl

/-- With a sink that never fails, and children that can be started, only texts are refused. -/
theorem Conversation.only_refusals {p q : Parties EchoState σ} {events : List Event}
    (h : (overEcho sink pollTimeout patience).Conversation p events q)
    (hworks : sink.Works p.sink) (hstarts : p.host.options.failingStart = false) :
    ∀ event ∈ events, event.fault? = none ∨ ∃ child text, event.refused? child = some text := by
  have hsink := h.sink_faultless hworks
  clear hworks
  induction events generalizing p with
  | nil => exact List.forall_mem_nil _
  | cons first rest ih =>
    obtain ⟨hanswer, hrest⟩ := h
    obtain ⟨hhere, hthere⟩ := List.forall_mem_cons.mp hsink
    refine List.forall_mem_cons.mpr
      ⟨?_, ih hrest ((options_after p first).symm ▸ hstarts) hthere⟩
    cases first with
    | start number env failure =>
      have hstart : (p.host.start number env).2 = failure := hanswer
      rw [EchoState.start, hstarts] at hstart
      exact .inl hstart.symm
    | send number text failure =>
      cases failure with
      | none => exact .inl rfl
      | some fault => exact .inr ⟨number, text, if_pos rfl⟩
    | teardown number answer =>
      have hteardown : (p.host.teardown number).2 = answer := hanswer
      rw [EchoState.teardown_eq] at hteardown
      exact .inl (congrArg Teardown.failure hteardown.symm)
    | poll => exact .inl rfl
    | hasExited => exact .inl rfl
    | _ => exact .inl (hhere rfl)

/-- Every end of a child that is called for goes well. -/
theorem Conversation.teardown_answers {p q : Parties EchoState σ} {events : List Event}
    (h : (overEcho sink pollTimeout patience).Conversation p events q) {number : Nat}
    {answer : Teardown} (hmem : .teardown number answer ∈ events) : answer = {} := by
  induction events generalizing p with
  | nil => cases hmem
  | cons first rest ih =>
    rcases List.mem_cons.mp hmem with rfl | hrest
    · exact h.1.symm.trans (EchoState.teardown_eq _ _)
    · exact ih h.2 hrest

/-- Where only texts are refused, a command fails only with a text that its child refuses. -/
theorem Executed.refused_of_failed {β : Type} {r : Runner β σ} {line : Line} {command : Command}
    {books books' : Books} {events : List Event} {error : RunError}
    (h : r.Executed line command books events (.error (.failed error)) books')
    (honly : ∀ event ∈ events,
      event.fault? = none ∨ ∃ child text, event.refused? child = some text) :
    ∃ text child fault, command = .send text ∧ books.child = some child ∧
      error = .write line.number text fault ∧
      events = [.write (sendLine text) none, .flush none, .send child text (some fault)] ∧
      books' = books := by
  obtain ⟨event, fault, ⟨earlier, hevents, -, hfault⟩, -⟩ := h.accounts
  have hmem : event ∈ events := hevents ▸ List.mem_append_right _ List.mem_cons_self
  obtain ⟨child, text, hrefused⟩ : ∃ child text, event.refused? child = some text := by
    refine (honly event hmem).resolve_left fun hnone => ?_
    rw [hnone] at hfault
    cases hfault
  have hsome (hnone : ∀ event ∈ events, ∀ recipient, event.refused? recipient = none) : False := by
    rw [hnone event hmem child] at hrefused
    cases hrefused
  generalize hresult : Except.error (Halt.failed error) = result at h
  cases h with
  | refused hchild =>
    cases hresult
    exact ⟨_, _, _, rfl, hchild, rfl, rfl, rfl⟩
  | unended hended => exact (hsome hended.refused_eq_none).elim
  | unstarted hended =>
    refine (hsome (List.forall_mem_append.mpr ⟨hended.refused_eq_none, ?_⟩)).elim
    simp [Event.refused?]
  | restarted => cases hresult
  | sent hchild hdrained =>
    exact (hsome (by simpa [Event.refused?] using hdrained.refused_eq_none)).elim
  | _ => exact (hsome (by simp [Event.refused?])).elim

/-- A readable script over echoing children fails only at a text that its child refuses. The lines
before it are carried out, and after it the child is ended, the transcript is flushed and nothing
else is done. -/
theorem Ran.stops {script : Script} {s : RunState EchoState σ} {events : List Event}
    {error : RunError} {books' : Books} {q : Parties EchoState σ}
    (h : (overEcho sink pollTimeout patience).Ran script s events (.failed error) books')
    (htalk : (overEcho sink pollTimeout patience).Conversation s.parties events q)
    (hworks : sink.Works s.sink) (hstarts : s.host.options.failingStart = false)
    (hread : script.failure = none) :
    ∃ before line after first s₁ child text fault, script.lines = before ++ line :: after ∧
      (overEcho sink pollTimeout patience).Performed s before first (.ok ()) s₁ ∧
      (s₁.core.step line.text).1 = .send text ∧ s₁.child = some child ∧
      (s₁.host.send child text).2 = some fault ∧ error = .write line.number text fault ∧
      events = first ++ [.write (sendLine text) none, .flush none, .send child text (some fault),
        .teardown child {}, .flush none] ∧
      books' = (s₁.books.readLine line.text).endChild := by
  have honly := htalk.only_refusals hworks hstarts
  have hsink := htalk.sink_faultless hworks
  cases h with
  | unread _ hfault =>
    rw [hread] at hfault
    cases hfault
  | @unended work fault s₂ cleanup closing _ _ hended =>
    obtain ⟨event, hmem, hfault⟩ : ∃ event ∈ cleanup, event.fault? ≠ none := by
      by_contra hnone
      have hfaultless : Faultless cleanup := fun event hmem => by
        by_contra hfault
        exact hnone ⟨event, hmem, hfault⟩
      cases hended.faultless_iff.mp hfaultless
    have hcleanup : event ∈ work ++ (cleanup ++ [.flush closing]) :=
      List.mem_append_right _ (List.mem_append_left _ hmem)
    obtain ⟨child, text, hrefused⟩ := (honly event hcleanup).resolve_left hfault
    rw [hended.refused_eq_none event hmem] at hrefused
    cases hrefused
  | @failed work error s₂ cleanup failure closing hlines hended =>
    obtain ⟨before, line, after, first, own, s₁, hsplit, rfl, hbefore, hline⟩ := hlines.stop_cases
    have hown : ∀ event ∈ own,
        event.fault? = none ∨ ∃ child text, event.refused? child = some text :=
      fun event hmem => honly event (List.mem_append_left _ (List.mem_append_right _ hmem))
    obtain ⟨text, child, fault, hcommand, hchild, rfl, rfl, hbooks⟩ :=
      hline.rule.refused_of_failed hown
    have hlive : s₂.child = some child := (congrArg Books.child hbooks).trans hchild
    have hanswer : (s₁.host.send child text).2 = some fault := hline.does.answered.2.2.1
    -- The end of the child is answered, and the closing flush succeeds.
    rw [hlive] at hended
    cases hended with
    | @called _ answer =>
      have hgood : answer = {} :=
        htalk.teardown_answers (List.mem_append_right _ (List.mem_append_left _
          (List.mem_append_right _ List.mem_cons_self)))
      have hflushed : closing = none :=
        hsink (.flush closing) (List.mem_append_right _ (List.mem_append_right _
          List.mem_cons_self)) rfl
      subst hgood hflushed
      refine ⟨before, line, after, first, s₁, child, text, fault, hsplit, hbefore, hcommand, hchild,
        hanswer, rfl, ?_, congrArg Books.endChild hbooks⟩
      rw [List.append_assoc]
      rfl

/-- Whether a run stops at the first text too many, where every child takes `n` texts: the text of a
line that comes after other lines, for the child with the given number. -/
structure StopsAt (r : Runner EchoState σ) (n : Nat) (script : Script) (s s' : RunState EchoState σ)
    (error : RunError) (before : List Line) (line : Line) (child : Nat) : Prop where
  /-- The lines are some of the script, from the first one on. -/
  isPrefix : before ++ [line] <+: script.lines
  /-- The child is the one that the lines before start last. -/
  started : ((s.core.commands (before.map Line.text)).filterMap Command.restart?).length = child + 1
  /-- They have `n` texts for it. -/
  taken : (textsAfter (child + 1) (s.core.commands (before.map Line.text))).length = n
  /-- The line is one text more. -/
  text : ((s.core.after (before.map Line.text)).step line.text).1 = .send line.text
  /-- No child before it is to get more than `n` texts. -/
  earlier : ∀ number < child,
    (textsAfter (number + 1) (s.core.commands (script.lines.map Line.text))).length ≤ n
  /-- The error has the number and the text of the line. -/
  error_eq : error = .write line.number line.text EchoState.inputClosed
  /-- The lines before are carried out. After them the text is shown and refused, the child is ended
  and the transcript is flushed, and this is all. -/
  last : ∃ s₁, (r.runLines before).run.run s = (.ok (), s₁) ∧
    s'.events = s₁.events ++ [.write (sendLine line.text) none, .flush none,
      .send child line.text (some EchoState.inputClosed), .teardown child {}, .flush none] ∧
    s'.books = (s₁.books.readLine line.text).endChild

/-- A readable script over children that take `n` texts each stops at the first text too many. Until
then every child has taken what the lines before have for it. -/
theorem Ran.stopsAt {n : Nat} {script : Script} {core : Core} {state : σ} {events : List Event}
    {error : RunError} {s : RunState EchoState σ}
    (h : (overEcho sink pollTimeout patience).Ran script
      { core, host := { options := { acceptLines := some n } }, sink := state } events
      (.failed error) s.books)
    (htalk : (overEcho sink pollTimeout patience).Conversation
      ⟨{ options := { acceptLines := some n } }, state⟩ events s.parties)
    (hevents : s.events = events) (hworks : sink.Works state) (hread : script.failure = none) :
    ∃ before line child, (overEcho sink pollTimeout patience).StopsAt n script
        { core, host := { options := { acceptLines := some n } }, sink := state } s error before
        line child ∧
      s.started = child + 1 ∧ ∀ number, acceptedBy number events =
        textsAfter (number + 1) (core.commands (before.map Line.text)) := by
  have htracks : s.host.Tracks { acceptLines := some n } s.books.custody events :=
    EchoState.tracks_of_fresh h.keeps htalk
  obtain ⟨before, line, after, first, s₁, child, text, fault, hlines, hbefore, hcommand, hchild,
    hrefused, rfl, rfl, hbooks⟩ := h.stops htalk hworks rfl hread
  obtain ⟨-, hcore, hstarted, hcurrent⟩ := hbefore.delivers rfl
  have htracks₁ : s₁.host.Tracks { acceptLines := some n } s₁.books.custody first :=
    EchoState.tracks_of_fresh hbefore.keeps hbefore.does.answered
  obtain ⟨rfl, hfull⟩ := htracks₁.full_of_refused hchild rfl hrefused
  have htext : text = line.text := Core.send_of_step hcommand
  subst htext
  have hnumber : s₁.started = child + 1 := eq_of_latest (hcurrent.symm.trans hchild)
  have hfirst (number : Nat) : acceptedBy number first =
      textsAfter (number + 1) (core.commands (before.map Line.text)) :=
    ((hbefore.texts rfl rfl number).2 rfl).2
  have htexts (number : Nat) : acceptedBy number (first ++ [.write (sendLine line.text) none,
      .flush none, .send child line.text (some EchoState.inputClosed), .teardown child {},
      .flush none]) = textsAfter (number + 1) (core.commands (before.map Line.text)) := by
    rw [acceptedBy_append, ← hfirst]
    exact List.append_nil _
  have hbegins : before ++ [line] <+: script.lines :=
    ⟨after, by rw [hlines, List.append_assoc, List.singleton_append]⟩
  have hrestarts :
      ((core.commands (before.map Line.text)).filterMap Command.restart?).length = child + 1 := by
    have hcount := startedAfter_eq 0 (core.commands (before.map Line.text))
    rw [← hstarted, hnumber, Nat.zero_add] at hcount
    exact hcount.symm
  rw [hcore] at hcommand
  obtain ⟨hearlier, -⟩ := Core.textsAfter_of_send hbegins hrestarts hcommand
  refine ⟨before, line, child, ⟨hbegins, hrestarts, ?_, hcommand, fun number hlt => ?_, rfl, s₁,
    hbefore.does.ends, ?_, hbooks⟩, (congrArg Books.started hbooks).trans hnumber, htexts⟩
  · rw [← hfirst]
    exact (Option.some.inj hfull).symm
  · rw [hearlier number hlt, ← htexts]
    exact htracks.length_le rfl number
  · have hnoted : s₁.events = first := by
      rw [RunState.events, hbefore.does.noted, List.append_nil, List.reverse_reverse]
    rw [hnoted]
    exact hevents

/-- Whether a run over children that take `n` texts each is as the texts for them have it. -/
structure Limited (r : Runner EchoState σ) (n : Nat) (script : Script) (s s' : RunState EchoState σ)
    (outcome : Outcome) : Prop where
  /-- It is over. -/
  ends : outcome ≠ .unfinished
  /-- It fails exactly if some child is to get more than `n` texts. -/
  fails_iff : (∃ error, outcome = .failed error) ↔
    ∃ child, n < (textsAfter (child + 1) (s.core.commands (script.lines.map Line.text))).length
  /-- It fails at the first text too many, and the child of that text is the last one. -/
  stops : ∀ error, outcome = .failed error → ∃ before line child,
    r.StopsAt n script s s' error before line child ∧ s'.host.children.length = child + 1
  /-- Else every restart starts a child. -/
  finishes : ∀ report, outcome = .finished report → s'.host.children.length =
    ((s.core.commands (script.lines.map Line.text)).filterMap Command.restart?).length
  /-- Every child takes the first `n` texts that are for it, or all of them if they are fewer. -/
  received : ∀ (number : Nat) (child : EchoChild), s'.host.children[number]? = some child →
    child.received =
      (textsAfter (number + 1) (s.core.commands (script.lines.map Line.text))).take n

/-- Over a readable script and a sink that never fails, children that take `n` texts each stop the
run at the first text too many, if there is one, and take all texts before it. -/
theorem run_limited {n : Nat} {script : Script} {core : Core} {state : σ} {outcome : Outcome}
    {s : RunState EchoState σ} (hpatience : 2 ≤ patience) (hread : script.failure = none)
    (hworks : sink.Works state)
    (h : (overEcho sink pollTimeout patience).run script
      { core, host := { options := { acceptLines := some n } }, sink := state } = (outcome, s)) :
    (overEcho sink pollTimeout patience).Limited n script
      { core, host := { options := { acceptLines := some n } }, sink := state } s outcome := by
  obtain ⟨events, hevents, htalk, hran⟩ := ran_of_run h
  have hends := (hran.settles hpatience htalk (EchoState.settled_fresh _)).1
  have htracks : s.host.Tracks { acceptLines := some n } s.books.custody events :=
    EchoState.tracks_of_fresh hran.keeps htalk
  have hfew (number : Nat) := htracks.length_le rfl number
  cases outcome with
  | unfinished => exact absurd rfl hends
  | finished report =>
    obtain ⟨work, closing, s₁, hlines, rfl, hclosing, hbooks⟩ := hran.carried_out
    have htexts (number : Nat) : acceptedBy number (work ++ closing) =
        textsAfter (number + 1) (core.commands (script.lines.map Line.text)) := by
      rw [acceptedBy_append, (eq_nil_of_deliveries hclosing number).1, List.append_nil]
      exact ((hlines.texts rfl rfl number).2 rfl).2
    simp only [htexts] at hfew
    refine ⟨hends, ⟨nofun, ?_⟩, nofun, fun _ _ => ?_, fun number child hchild => ?_⟩
    · rintro ⟨number, hmany⟩
      exact absurd hmany (hfew number).not_gt
    · have hstarted : s.started = s₁.started := congrArg Books.started hbooks
      rw [htracks.length_eq]
      refine hstarted.trans ((hlines.delivers rfl).2.2.1.trans ?_)
      rw [startedAfter_eq]
      exact Nat.zero_add _
    · rw [(htracks.kept number child hchild).received, htexts, List.take_of_length_le (hfew number)]
  | failed error =>
    obtain ⟨before, line, child, hstops, hstarted, htexts⟩ :=
      hran.stopsAt htalk hevents hworks hread
    obtain ⟨hearlier, rest, hlast⟩ :=
      Core.textsAfter_of_send hstops.isPrefix hstops.started hstops.text
    have hlength : s.host.children.length = child + 1 := htracks.length_eq.trans hstarted
    simp only [htexts] at hfew
    refine ⟨hends, ⟨fun _ => ⟨child, ?_⟩, fun _ => ⟨_, rfl⟩⟩, ?_, nofun, ?_⟩
    · rw [hlast, List.length_append, hstops.taken, List.length_cons]
      omega
    · rintro error ⟨⟩
      exact ⟨before, line, child, hstops, hlength⟩
    · intro number kept hkept
      have hlt : number < child + 1 := hlength ▸ (List.getElem?_eq_some_iff.mp hkept).1
      rw [(htracks.kept number kept hkept).received, htexts]
      rcases Nat.lt_succ_iff_lt_or_eq.mp hlt with hless | rfl
      · rw [hearlier number hless, List.take_of_length_le (hfew number)]
      · rw [hlast, List.take_left' hstops.taken]

end Runner

end LineScript
