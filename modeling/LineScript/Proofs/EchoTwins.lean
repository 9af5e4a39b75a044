import LineScript.Proofs.EchoLimits

/-!
# Two ways in which a child ends

A child that echoes and has ended once it has printed `n` lines is the twin of one that takes `n`
texts. Both refuse the same text, since before every text all that was taken is printed; the one
that has ended is not polled again, the other one is polled in vain. Between two lines of a script
the two hosts differ only in what they remember of their polls. Main result: over the two of them
every run ends in the same way, with the same books and transcript and the same texts taken.
-/

namespace LineScript

/-- A child that takes any number of texts. -/
def EchoChild.unlimited (child : EchoChild) : EchoChild := { child with remaining := none }

/-- Whether a child that takes `n` texts has printed all that it took. -/
structure EchoChild.IsLevel (child : EchoChild) (n : Nat) : Prop where
  /-- Nothing is left to print. -/
  pending_eq : child.pending = []
  /-- As many lines were printed as texts were taken. -/
  printed_eq : child.printed = child.taken.length
  /-- The rest of the texts is still to be taken. -/
  remaining_eq : child.remaining = some (n - child.taken.length)

/-- Whether the children of one host take `n` texts, those of another one end after as many lines of
output, and else they are the same. -/
structure EchoState.Twins (a b : EchoState) (n : Nat) : Prop where
  /-- The children of the first one take `n` texts. -/
  options_eq : a.options = { acceptLines := some n }
  /-- The children of the second one end after `n` lines of output. -/
  options_eq' : b.options = { exitAfterOutput := some n }
  /-- The children have done the same. -/
  children_eq : b.children = a.children.map EchoChild.unlimited
  /-- They have printed all that they took. -/
  level : ∀ child ∈ a.children, child.IsLevel n

/-- Whether two states of a runner are the same but for twin hosts and for histories. -/
def RunState.Twins {σ : Type} (s t : RunState EchoState σ) (n : Nat) : Prop :=
  ∃ host history, t = { s with host, history } ∧ s.host.Twins host n

namespace EchoChild.IsLevel

variable {child child' : EchoChild} {n : Nat}

/-- A child that takes `n` texts takes a text exactly if its twin does. -/
theorem send_unlimited (h : child.IsLevel n) (text : String) :
    child.unlimited.send { exitAfterOutput := some n } text =
      (child.send { acceptLines := some n } text).map EchoChild.unlimited := by
  have hsame : (child.unlimited.hasExited { exitAfterOutput := some n } ||
        child.unlimited.remaining == some 0) =
      (child.hasExited { acceptLines := some n } || child.remaining == some 0) := by
    have hfull : decide (n ≤ child.taken.length) = (some (n - child.taken.length) == some 0) := by
      rw [Bool.eq_iff_iff, decide_eq_true_iff, beq_iff_eq, Option.some_inj]
      omega
    rw [h.remaining_eq, ← hfull, ← h.printed_eq]
    change (child.tornDown || decide (n ≤ child.printed) || false) =
      (child.tornDown || false || decide (n ≤ child.printed))
    rw [Bool.or_false, Bool.or_false]
  rw [EchoChild.send, EchoChild.send, hsame]
  split_ifs <;> rfl

/-- A text that is taken is printed at the next poll. -/
theorem poll_of_send (h : child.IsLevel n) {text : String}
    (hsend : child.send { acceptLines := some n } text = some child') :
    ((child'.poll { acceptLines := some n }).2 = .line text ∧
        (child'.poll { acceptLines := some n }).1.IsLevel n) ∧
      (child'.unlimited.poll { exitAfterOutput := some n }).2 = .line text ∧
        (child'.unlimited.poll { exitAfterOutput := some n }).1 =
          (child'.poll { acceptLines := some n }).1.unlimited := by
  obtain ⟨-, -, rfl⟩ := send_eq_some hsend
  obtain ⟨env, taken, pending, remaining, printed, tornDown⟩ := child
  have hpending : pending = [] := h.pending_eq
  have hprinted : printed = taken.length := h.printed_eq
  have hremaining : remaining = some (n - taken.length) := h.remaining_eq
  subst hpending hprinted hremaining
  exact ⟨⟨rfl, rfl, rfl, rfl⟩, rfl, rfl⟩

end EchoChild.IsLevel

/-- A poll of a child that was just replaced. -/
theorem EchoState.poll_set {s : EchoState} {number : Nat} (h : number < s.children.length)
    (child : EchoChild) (timeout : Duration) :
    EchoState.poll { s with children := s.children.set number child } number timeout =
      ({ s with
          children := s.children.set number (child.poll s.options).1
          polled := (child.poll s.options).2 :: s.polled }, (child.poll s.options).2) := by
  rw [EchoState.poll, List.getElem?_set_self h]
  dsimp only
  rw [List.set_set]

namespace EchoState.Twins

variable {a b : EchoState} {n : Nat}

/-- Fresh hosts are twins. -/
theorem fresh (n : Nat) :
    Twins { options := { acceptLines := some n } } { options := { exitAfterOutput := some n } } n :=
  ⟨rfl, rfl, rfl, nofun⟩

/-- A child of the second host is one of the first host. -/
theorem getElem?_eq (h : a.Twins b n) (number : Nat) :
    b.children[number]? = a.children[number]?.map EchoChild.unlimited := by
  rw [h.children_eq, List.getElem?_map]

/-- Twins may poll differently. -/
theorem of_eq {a' b' : EchoState} (h : a.Twins b n) (ha : a'.options = a.options)
    (ha' : a'.children = a.children) (hb : b'.options = b.options)
    (hb' : b'.children = b.children) : a'.Twins b' n :=
  ⟨ha.trans h.options_eq, hb.trans h.options_eq', by rw [hb', ha', h.children_eq],
    fun child hmem => h.level child (ha' ▸ hmem)⟩

/-- A start is answered alike. -/
theorem start (h : a.Twins b n) (number : Nat) (env : Environment) :
    (b.start number env).2 = (a.start number env).2 ∧
      (a.start number env).1.Twins (b.start number env).1 n := by
  have hstarts : a.options.failingStart = false := by rw [h.options_eq]
  have hstarts' : b.options.failingStart = false := by rw [h.options_eq']
  have hlimit : a.options.acceptLines = some n := by rw [h.options_eq]
  have hlimit' : b.options.acceptLines = none := by rw [h.options_eq']
  rw [EchoState.start, EchoState.start, hstarts, hstarts', hlimit, hlimit']
  refine ⟨rfl, h.options_eq, h.options_eq', ?_, ?_⟩
  · change b.children ++ _ = (a.children ++ _).map _
    rw [List.map_append, ← h.children_eq]
    rfl
  · exact List.forall_mem_append.mpr ⟨h.level, List.forall_mem_singleton.mpr ⟨rfl, rfl, rfl⟩⟩

/-- Children may be replaced by such that have done the same. -/
theorem set (h : a.Twins b n) {number : Nat} {child : EchoChild} (hlevel : child.IsLevel n)
    {a' b' : EchoState} (ha : a'.options = a.options)
    (ha' : a'.children = a.children.set number child) (hb : b'.options = b.options)
    (hb' : b'.children = b.children.set number child.unlimited) : a'.Twins b' n := by
  refine ⟨ha.trans h.options_eq, hb.trans h.options_eq', ?_, fun kept hmem => ?_⟩
  · rw [hb', ha', h.children_eq, List.map_set]
  · rcases List.mem_or_eq_of_mem_set (ha' ▸ hmem) with hkept | rfl
    · exact h.level kept hkept
    · exact hlevel

/-- The end of a child is answered alike. -/
theorem teardown (h : a.Twins b n) (number : Nat) :
    (b.teardown number).2 = (a.teardown number).2 ∧
      (a.teardown number).1.Twins (b.teardown number).1 n := by
  rw [EchoState.teardown, EchoState.teardown, h.getElem?_eq]
  cases hchild : a.children[number]? with
  | none => exact ⟨rfl, h⟩
  | some child =>
    have hlevel := h.level child (List.mem_of_getElem? hchild)
    have hdown : EchoChild.IsLevel { child with tornDown := true } n :=
      ⟨hlevel.pending_eq, hlevel.printed_eq, hlevel.remaining_eq⟩
    have htorn : child.unlimited.tornDown = child.tornDown := rfl
    dsimp only [Option.map_some]
    rw [htorn]
    split_ifs
    · exact ⟨rfl, h⟩
    · exact ⟨rfl, h.set hdown rfl rfl rfl rfl⟩

/-- A text is refused by both hosts, which stay as they are, or taken by both and printed at the
next poll. -/
theorem send_poll (h : a.Twins b n) (number : Nat) (text : String) (timeout : Duration) :
    (a.send number text).2 = some inputClosed ∧ (b.send number text).2 = some inputClosed ∧
        (a.send number text).1.Twins (b.send number text).1 n ∨
      ((a.send number text).2 = none ∧ (b.send number text).2 = none) ∧
        ((a.send number text).1.poll number timeout).2 = .line text ∧
        ((b.send number text).1.poll number timeout).2 = .line text ∧
        ((a.send number text).1.poll number timeout).1.Twins
          ((b.send number text).1.poll number timeout).1 n := by
  have hsends : b.children[number]?.bind (·.send b.options text) =
      (a.children[number]?.bind (·.send a.options text)).map EchoChild.unlimited := by
    rw [h.getElem?_eq, h.options_eq, h.options_eq']
    cases hchild : a.children[number]? with
    | none => rfl
    | some child => exact (h.level child (List.mem_of_getElem? hchild)).send_unlimited text
  rw [EchoState.send, EchoState.send, hsends]
  cases htaken : a.children[number]?.bind (·.send a.options text) with
  | none => exact .inl ⟨rfl, rfl, h⟩
  | some child' =>
    obtain ⟨child, hchild, hsend⟩ := Option.bind_eq_some_iff.mp htaken
    rw [h.options_eq] at hsend
    obtain ⟨⟨hline, hlevel⟩, hline', hpolled⟩ :=
      (h.level child (List.mem_of_getElem? hchild)).poll_of_send hsend
    have hlt : number < a.children.length := (List.getElem?_eq_some_iff.mp hchild).1
    have hlt' : number < b.children.length := by
      rw [h.children_eq, List.length_map]
      exact hlt
    refine .inr ⟨⟨rfl, rfl⟩, ?_⟩
    dsimp only [Option.map_some]
    rw [poll_set hlt, poll_set hlt', h.options_eq, h.options_eq']
    exact ⟨hline, hline', h.set hlevel h.options_eq.symm rfl h.options_eq'.symm (by rw [hpolled])⟩

end EchoState.Twins

/-- Where nothing is left to print a poll brings no line and leaves every child as it is. -/
theorem EchoState.poll_in_vain {s : EchoState} (h : ∀ child ∈ s.children, child.pending = [])
    (number : Nat) (timeout : Duration) :
    (∀ output, (s.poll number timeout).2 ≠ .line output) ∧
      (s.poll number timeout).1.options = s.options ∧
      (s.poll number timeout).1.children = s.children := by
  rw [EchoState.poll]
  cases hchild : s.children[number]? with
  | none =>
    refine ⟨?_, rfl, rfl⟩
    rintro output ⟨⟩
  | some child =>
    obtain ⟨hlt, hget⟩ := List.getElem?_eq_some_iff.mp hchild
    have hsame : s.children.set number child = s.children := hget ▸ List.set_getElem_self hlt
    dsimp only
    rw [EchoChild.poll, h child (List.mem_of_getElem? hchild)]
    split_ifs <;>
    · refine ⟨?_, rfl, hsame⟩
      rintro output ⟨⟩

namespace Runner

section Calls

variable {β σ : Type} (r : Runner β σ)

/-- How a drain goes on after a line: it is over if the child has ended. -/
def goOn (child left : Nat) : Action β σ Unit := do
  if ← r.hasExited child then r.flush else r.drain child left

/-- What is done with a line of output. -/
def echo (child left : Nat) (output : String) : Action β σ Unit := do
  r.writeLine ("< " ++ String.ofList (Text.trim output.toList))
  count fun report => { report with echoed := report.echoed + 1 }
  r.goOn child left

/-- What a poll leaves, with its event. -/
def polled (child : Nat) (s : RunState β σ) : RunState β σ :=
  { s with
    host := (r.host.poll s.host child r.pollTimeout).1
    history := .poll child r.pollTimeout (r.host.poll s.host child r.pollTimeout).2 :: s.history }

/-- What a poll does to the state. -/
theorem poll_run (child : Nat) (s : RunState β σ) :
    (r.poll child).run.run s =
      (.ok (r.host.poll s.host child r.pollTimeout).2, r.polled child s) :=
  rfl

/-- A drain whose poll brings a line copies the line and goes on. -/
theorem drain_run_of_line {child : Nat} {s : RunState β σ} {output : String}
    (h : (r.host.poll s.host child r.pollTimeout).2 = .line output) (left : Nat) :
    (r.drain child (left + 1)).run.run s =
      (r.echo child left output).run.run (r.polled child s) := by
  rw [drain, run_bind, poll_run, h]
  rfl

/-- A drain whose poll brings no line is over. -/
theorem drain_run_of_none {child : Nat} {s : RunState β σ}
    (h : ∀ output, (r.host.poll s.host child r.pollTimeout).2 ≠ .line output) (left : Nat) :
    (r.drain child (left + 1)).run.run s = r.flush.run.run (r.polled child s) := by
  rw [drain, run_bind, poll_run]
  cases hpoll : (r.host.poll s.host child r.pollTimeout).2 with
  | line output => exact absurd hpoll (h output)
  | timeout => rfl
  | endOfStream => rfl

/-- Handing out a text that was shown, and draining its child. -/
def offer (line : Line) (child : Nat) (text : String) : Action β σ Unit := do
  check (← r.trySend child text) (.write line.number text)
  count fun report => { report with sent := report.sent + 1 }
  r.drain child r.patience

/-- A text that is refused stops the script. -/
theorem offer_run_of_refused {child : Nat} {text : String} {s : RunState β σ} {fault : Fault}
    (h : (r.host.send s.host child text).2 = some fault) (line : Line) :
    (r.offer line child text).run.run s =
      (.error (.failed (.write line.number text fault)),
        { s with
          host := (r.host.send s.host child text).1
          history := .send child text (some fault) :: s.history }) := by
  rw [offer, run_bind, trySend_run, h]
  rfl

/-- A text that is taken is counted, and its child drained. -/
theorem offer_run_of_taken {child : Nat} {text : String} {s : RunState β σ}
    (h : (r.host.send s.host child text).2 = none) (line : Line) :
    (r.offer line child text).run.run s =
      (r.drain child r.patience).run.run { s with
        host := (r.host.send s.host child text).1
        report := { s.report with sent := s.report.sent + 1 }
        history := .send child text none :: s.history } := by
  rw [offer, run_bind, trySend_run, h]
  rfl

/-- Without a child a text is dropped. -/
theorem send_run_of_none {s : RunState β σ} (h : s.child = none) (line : Line) (text : String) :
    (r.send line text).run.run s = (count fun report =>
      { report with dropped := report.dropped + 1 }).run.run s := by
  rw [send, run_bind, (r.get_does s).ends]
  dsimp only
  rw [h]

/-- With a child a text is for it. -/
theorem send_run_of_some {s : RunState β σ} {child : Nat} (h : s.child = some child) (line : Line)
    (text : String) : (r.send line text).run.run s = (r.sendTo line child text).run.run s := by
  rw [send, run_bind, (r.get_does s).ends]
  dsimp only
  rw [h]

end Calls

variable {σ α γ : Type} {n : Nat}

/-- Two parts of a run do the same in two states with twin hosts. -/
structure TwinAt (n : Nat) (part part' : Action EchoState σ α) (s t : RunState EchoState σ) :
    Prop where
  /-- They end in the same way. -/
  result : (part'.run.run t).1 = (part.run.run s).1
  /-- They leave states with twin hosts. -/
  state : (part.run.run s).2.Twins (part'.run.run t).2 n

/-- Whether a part of a run does the same in any two states with twin hosts. -/
def Twin (n : Nat) (part : Action EchoState σ α) : Prop :=
  ∀ s t : RunState EchoState σ, s.Twins t n → TwinAt n part part s t

/-- Two parts do the same if they end so. -/
theorem TwinAt.of_run {part part' : Action EchoState σ α} {s t s' t' : RunState EchoState σ}
    {result : Except Halt α} (hrun : part.run.run s = (result, s'))
    (hrun' : part'.run.run t = (result, t')) (hstate : s'.Twins t' n) :
    TwinAt n part part' s t where
  result := by rw [hrun, hrun']
  state := by rwa [hrun, hrun']

/-- Two parts do the same if they come down to two that do. -/
theorem TwinAt.of_eq {part part' next next' : Action EchoState σ α}
    {s t s' t' : RunState EchoState σ} (hrun : part.run.run s = next.run.run s')
    (hrun' : part'.run.run t = next'.run.run t') (h : TwinAt n next next' s' t') :
    TwinAt n part part' s t where
  result := by rw [hrun, hrun', h.result]
  state := by rw [hrun, hrun']; exact h.state

/-- Parts in a row do the same if each of them does. -/
theorem TwinAt.bind {part part' : Action EchoState σ α} {next next' : α → Action EchoState σ γ}
    {s t : RunState EchoState σ} (h : TwinAt n part part' s t)
    (hnext : ∀ a s' t', s'.Twins t' n → TwinAt n (next a) (next' a) s' t') :
    TwinAt n (part >>= next) (part' >>= next') s t := by
  obtain ⟨hresult, hstate⟩ := h
  rcases hrun : part.run.run s with ⟨result, s'⟩
  rcases hrun' : part'.run.run t with ⟨result', t'⟩
  have hbind := run_bind part next s
  have hbind' := run_bind part' next' t
  rw [hrun] at hbind hresult hstate
  rw [hrun'] at hbind' hresult hstate
  cases hresult
  cases result with
  | ok a => exact .of_eq hbind hbind' (hnext a s' t' hstate)
  | error halt => exact .of_run hbind hbind' hstate

/-- Parts in a row are twin parts if each of them is. -/
theorem Twin.bind {part : Action EchoState σ α} {next : α → Action EchoState σ γ}
    (h : Twin n part) (hnext : ∀ a, Twin n (next a)) : Twin n (part >>= next) :=
  fun s t hs => (h s t hs).bind hnext

/-- A part that gives a value is a twin part. -/
theorem twin_pure (a : α) : Twin n (pure a : Action EchoState σ α) := fun _ _ hs => ⟨rfl, hs⟩

/-- A check is a twin part. -/
theorem twin_check (failure : Option Fault) (error : Fault → RunError) :
    Twin n (check failure error : Action EchoState σ Unit) := by
  cases failure with
  | none => exact twin_pure ()
  | some fault => exact fun _ _ hs => ⟨rfl, hs⟩

/-- Counting is a twin part. -/
theorem twin_count (change : Report → Report) :
    Twin n (count change : Action EchoState σ Unit) := by
  rintro s _ ⟨host, history, rfl, hhost⟩
  exact ⟨rfl, host, history, rfl, hhost⟩

/-- Noting an event is a twin part. -/
theorem twin_note (event : Event) : Twin n (note event : Action EchoState σ Unit) := by
  rintro s _ ⟨host, history, rfl, hhost⟩
  exact ⟨rfl, host, _, rfl, hhost⟩

/-- Turning a text into its command is a twin part. -/
theorem twin_step (text : String) : Twin n (step text : Action EchoState σ Command) := by
  rintro s _ ⟨host, history, rfl, hhost⟩
  exact ⟨rfl, host, history, rfl, hhost⟩

/-- Taking on a child is a twin part. -/
theorem twin_adopt : Twin n (adopt : Action EchoState σ Unit) := by
  rintro s _ ⟨host, history, rfl, hhost⟩
  exact ⟨rfl, host, history, rfl, hhost⟩

variable (sink : Sink σ) (pollTimeout : Duration) (patience : Nat)

/-- Writing a line is a twin part. -/
theorem twin_writeLine (line : String) :
    Twin n ((overEcho sink pollTimeout patience).writeLine line) := by
  rintro s _ ⟨host, history, rfl, hhost⟩
  exact .of_run (writeLine_run _ _ _) (writeLine_run _ _ _) ⟨host, _, rfl, hhost⟩

/-- Trying to flush is a twin part. -/
theorem twin_tryFlush : Twin n (overEcho sink pollTimeout patience).tryFlush := by
  rintro s _ ⟨host, history, rfl, hhost⟩
  exact ⟨rfl, host, _, rfl, hhost⟩

/-- A flush is a twin part. -/
theorem twin_flush : Twin n (overEcho sink pollTimeout patience).flush :=
  (twin_tryFlush sink pollTimeout patience).bind fun failure => twin_check failure .io

/-- The end of a child is a twin part. -/
theorem twin_tryTeardown : Twin n (overEcho sink pollTimeout patience).tryTeardown := by
  rintro s t ⟨host, history, ht, hhost⟩
  have hchild : t.child = s.child := by rw [ht]
  cases hlives : s.child with
  | none =>
    have hrun := (tryTeardown_does_nothing (overEcho sink pollTimeout patience) hlives).ends
    have hrun' := (tryTeardown_does_nothing (overEcho sink pollTimeout patience)
      (hchild.trans hlives)).ends
    exact .of_run hrun hrun' ⟨host, history, ht, hhost⟩
  | some child =>
    obtain ⟨hanswer, hended⟩ := hhost.teardown child
    have hrun := tryTeardown_run (overEcho sink pollTimeout patience) hlives
    have hrun' := tryTeardown_run (overEcho sink pollTimeout patience) (hchild.trans hlives)
    rw [ht] at hrun'
    rw [ht]
    refine ⟨?_, ?_⟩
    · rw [hrun, hrun']
      exact congrArg (fun answer => Except.ok answer.failure) hanswer
    · rw [hrun, hrun']
      exact ⟨_, _, rfl, hended⟩

/-- A start is a twin part. -/
theorem twin_tryStart (env : Environment) :
    Twin n ((overEcho sink pollTimeout patience).tryStart env) := by
  rintro s _ ⟨host, history, rfl, hhost⟩
  obtain ⟨hanswer, hstarted⟩ := hhost.start s.started env
  refine ⟨?_, ?_⟩
  · rw [tryStart_run, tryStart_run]
    exact congrArg Except.ok hanswer
  · rw [tryStart_run, tryStart_run]
    exact ⟨_, _, rfl, hstarted⟩

/-- A wait is a twin part. -/
theorem twin_sleep (duration : Duration) :
    Twin n ((overEcho sink pollTimeout patience).sleep duration) := by
  rintro s _ ⟨host, history, rfl, hhost⟩
  exact ⟨rfl, host, _, rfl, hhost⟩

variable {sink pollTimeout patience}

/-- Where nothing is left to print, a drain that goes on after a line comes to a flush, and what
children have done stays. -/
theorem goOn_run {s : RunState EchoState σ}
    (h : ∀ child ∈ s.host.children, child.pending = []) (number left : Nat) :
    ∃ host history, host.options = s.host.options ∧ host.children = s.host.children ∧
      ((overEcho sink pollTimeout patience).goOn number (left + 1)).run.run s =
        (overEcho sink pollTimeout patience).flush.run.run { s with host, history } := by
  obtain ⟨hline, hoptions, hchildren⟩ := EchoState.poll_in_vain h number pollTimeout
  rw [goOn, run_bind, hasExited_run]
  cases ((overEcho sink pollTimeout patience).host.hasExited s.host number).2 with
  | true => exact ⟨_, _, rfl, rfl, rfl⟩
  | false => exact ⟨_, _, hoptions, hchildren, drain_run_of_none _ hline left⟩

/-- What a drain does after a line is a twin part, if it may poll once more. -/
theorem twin_goOn (number left : Nat) :
    Twin n ((overEcho sink pollTimeout patience).goOn number (left + 1)) := by
  rintro s _ ⟨host, history, rfl, hhost⟩
  have hpending : ∀ child ∈ s.host.children, child.pending = [] :=
    fun child hmem => (hhost.level child hmem).pending_eq
  have hpending' : ∀ child ∈ host.children, child.pending = [] := by
    rw [hhost.children_eq]
    exact List.forall_mem_map.mpr hpending
  obtain ⟨_, _, hoptions, hchildren, hrun⟩ := goOn_run hpending number left
  obtain ⟨_, _, hoptions', hchildren', hrun'⟩ :=
    goOn_run (s := { s with host, history }) hpending' number left
  have htwins := hhost.of_eq hoptions hchildren hoptions' hchildren'
  exact .of_eq hrun hrun' (twin_flush _ _ _ _ _ ⟨_, _, rfl, htwins⟩)

/-- Copying a line is a twin part, if a drain may poll once more. -/
theorem twin_echo (number left : Nat) (output : String) :
    Twin n ((overEcho sink pollTimeout patience).echo number (left + 1) output) :=
  (twin_writeLine _ _ _ _).bind fun _ => (twin_count _).bind fun _ => twin_goOn number left

/-- Handing out a text and draining its child is a twin part, if a drain may poll twice. -/
theorem twin_offer (hpatience : 2 ≤ patience) (line : Line) (number : Nat) (text : String) :
    Twin n ((overEcho sink pollTimeout patience).offer line number text) := by
  rintro s _ ⟨host, history, rfl, hhost⟩
  obtain ⟨left, rfl⟩ : ∃ left, patience = left + 2 := ⟨patience - 2, by omega⟩
  rcases hhost.send_poll number text pollTimeout with
    ⟨hrefused, hrefused', htwins⟩ | ⟨⟨htaken, htaken'⟩, hline, hline', htwins⟩
  · exact .of_run (offer_run_of_refused _ hrefused line)
      (offer_run_of_refused (s := { s with host, history }) _ hrefused' line) ⟨_, _, rfl, htwins⟩
  · refine .of_eq (offer_run_of_taken _ htaken line)
      (offer_run_of_taken (s := { s with host, history }) _ htaken' line) ?_
    -- The first poll brings the text back on both sides, and after it the hosts are twins.
    refine .of_eq (drain_run_of_line _ hline (left + 1)) (drain_run_of_line _ hline' (left + 1)) ?_
    exact twin_echo number left text _ _ ⟨_, _, rfl, htwins⟩

/-- A command is a twin part. -/
theorem twin_execute (hpatience : 2 ≤ patience) (line : Line) (command : Command) :
    Twin n ((overEcho sink pollTimeout patience).execute line command) := by
  cases command with
  | nothing => exact twin_pure ()
  | skipMode on => exact twin_writeLine _ _ _ _
  | restart env =>
    refine (twin_tryTeardown _ _ _).bind fun failure => (twin_check failure _).bind fun _ => ?_
    refine (twin_tryStart _ _ _ env).bind fun failure => (twin_check failure _).bind fun _ => ?_
    exact twin_adopt
  | send text =>
    rintro s t htwins
    have hchild : t.child = s.child := by
      obtain ⟨host, history, rfl, -⟩ := htwins
      rfl
    cases hlives : s.child with
    | none =>
      exact .of_eq (send_run_of_none _ hlives line text)
        (send_run_of_none _ (hchild.trans hlives) line text) (twin_count _ s t htwins)
    | some child =>
      refine .of_eq (send_run_of_some _ hlives line text)
        (send_run_of_some _ (hchild.trans hlives) line text) ?_
      refine ((twin_writeLine _ _ _ _).bind fun _ => (twin_flush _ _ _).bind fun _ => ?_) s t htwins
      exact twin_offer hpatience line child text
  | delay duration =>
    refine (twin_writeLine _ _ _ _).bind fun _ => (twin_flush _ _ _).bind fun _ => ?_
    exact twin_sleep _ _ _ duration
  | malformed reason => exact (twin_count _).bind fun _ => twin_note _

/-- Lines in turn are a twin part. -/
theorem twin_runLines (hpatience : 2 ≤ patience) (lines : List Line) :
    Twin n ((overEcho sink pollTimeout patience).runLines lines) := by
  induction lines with
  | nil => exact twin_pure ()
  | cons line rest ih =>
    have hline : Twin n ((overEcho sink pollTimeout patience).runLine line) :=
      (twin_count _).bind fun _ => (twin_step line.text).bind fun command =>
        twin_execute hpatience line command
    exact hline.bind fun _ => ih

/-- A script is a twin part. -/
theorem twin_runScript (hpatience : 2 ≤ patience) (script : Script) :
    Twin n ((overEcho sink pollTimeout patience).runScript script) :=
  (twin_runLines hpatience script.lines).bind fun _ => twin_check script.failure .io

/-- The conclusion of a run is a twin part. -/
theorem twin_conclude (stopped : Except Halt Unit) :
    Twin n ((overEcho sink pollTimeout patience).conclude stopped) := by
  refine (twin_tryTeardown _ _ _).bind fun cleanup => (twin_tryFlush _ _ _).bind fun _ => ?_
  match stopped, cleanup with
  | .error (.failed error), none => exact twin_pure _
  | .error (.failed error), some fault => exact (twin_note _).bind fun _ => twin_pure _
  | .error .unfinished, _ => exact twin_pure _
  | .ok (), some fault => exact twin_pure _
  | .ok (), none =>
    rintro s _ ⟨host, history, rfl, hhost⟩
    exact ⟨rfl, host, history, rfl, hhost⟩

/-- Runs from states with twin hosts end in the same way, in states with twin hosts. -/
theorem run_twin (hpatience : 2 ≤ patience) (script : Script) {s t : RunState EchoState σ}
    (h : s.Twins t n) :
    ((overEcho sink pollTimeout patience).run script t).1 =
        ((overEcho sink pollTimeout patience).run script s).1 ∧
      ((overEcho sink pollTimeout patience).run script s).2.Twins
        ((overEcho sink pollTimeout patience).run script t).2 n := by
  obtain ⟨hresult, hstate⟩ := twin_runScript hpatience script s t h
  rcases hscript : ((overEcho sink pollTimeout patience).runScript script).run.run s with
    ⟨stopped, s₁⟩
  rcases hscript' : ((overEcho sink pollTimeout patience).runScript script).run.run t with
    ⟨stopped', t₁⟩
  rw [hscript, hscript'] at hresult hstate
  cases hresult
  by_cases hne : stopped = .error .unfinished
  · subst hne
    rw [run, run, hscript, hscript']
    exact ⟨rfl, hstate⟩
  · have hends : Twin n ((overEcho sink pollTimeout patience).conclude stopped) :=
      twin_conclude stopped
    obtain ⟨hconcluded, hlast⟩ := hends s₁ t₁ hstate
    rw [run_eq_conclude _ hscript hne, run_eq_conclude _ hscript' hne]
    rcases hconclude : ((overEcho sink pollTimeout patience).conclude stopped).run.run s₁ with
      ⟨concluded, s₂⟩
    rcases hconclude' : ((overEcho sink pollTimeout patience).conclude stopped).run.run t₁ with
      ⟨concluded', t₂⟩
    rw [hconclude, hconclude'] at hconcluded hlast
    cases hconcluded
    cases concluded with
    | ok outcome => exact ⟨rfl, hlast⟩
    | error halt => exact ⟨rfl, hlast⟩

/-- Whether two runs end in the same way, with the same books and transcript, after children with
the same variables that took the same texts. -/
structure SameResult (first second : Outcome × RunState EchoState σ) : Prop where
  /-- They end in the same way. -/
  outcome_eq : second.1 = first.1
  /-- The variables, the counters and the number of starts are the same. -/
  books_eq : second.2.books = first.2.books
  /-- The transcript is the same. -/
  sink_eq : second.2.sink = first.2.sink
  /-- The children were started with the same variables. -/
  env_eq : second.2.host.children.map EchoChild.env = first.2.host.children.map EchoChild.env
  /-- The children took the same texts. -/
  received_eq : second.2.host.children.map EchoChild.received =
    first.2.host.children.map EchoChild.received

/-- Results with twin hosts are the same. -/
theorem sameResult_of_twins {outcome outcome' : Outcome} {s t : RunState EchoState σ}
    (houtcome : outcome' = outcome) (h : s.Twins t n) : SameResult (outcome, s) (outcome', t) := by
  obtain ⟨host, history, rfl, hhost⟩ := h
  refine ⟨houtcome, rfl, rfl, ?_, ?_⟩ <;>
  · rw [hhost.children_eq, List.map_map]
    rfl

/-- Children that take `n` texts each stop a run at the first text too many, and those that end
after `n` lines of output stop it in the same way. Whatever children do, scripts in a row leave none
of them alive, have one at a time and end each of them once. -/
theorem overEcho_limits (sink : Sink σ) (pollTimeout : Duration) {patience : Nat}
    (hpatience : 2 ≤ patience) (core : Core) (state : σ) :
    (∀ (n : Nat) (script : Script), script.failure = none → sink.Works state →
      (overEcho sink pollTimeout patience).Limited n script
        { core, host := { options := { acceptLines := some n } }, sink := state }
        ((overEcho sink pollTimeout patience).run script
          { core, host := { options := { acceptLines := some n } }, sink := state }).2
        ((overEcho sink pollTimeout patience).run script
          { core, host := { options := { acceptLines := some n } }, sink := state }).1) ∧
    (∀ (n : Nat) (script : Script), SameResult
      ((overEcho sink pollTimeout patience).run script
        { core, host := { options := { acceptLines := some n } }, sink := state })
      ((overEcho sink pollTimeout patience).run script
        { core, host := { options := { exitAfterOutput := some n } }, sink := state })) ∧
    ∀ (options : EchoOptions) (scripts : List Script),
      ((overEcho sink pollTimeout patience).runAll scripts
        { core, host := { options }, sink := state }).length = scripts.length ∧
      ∀ result ∈ (overEcho sink pollTimeout patience).runAll scripts
          { core, host := { options }, sink := state },
        result.1 ≠ .unfinished ∧ result.2.host.live = 0 ∧ result.2.host.mostLive ≤ 1 ∧
          result.2.host.teardowns = result.2.host.children.length := by
  refine ⟨fun n script hread hworks => run_limited hpatience hread hworks rfl, fun n script => ?_,
    fun options scripts => ?_⟩
  · have hfresh : RunState.Twins
        { core, host := { options := { acceptLines := some n } }, sink := state }
        { core, host := { options := { exitAfterOutput := some n } }, sink := state } n :=
      ⟨_, _, rfl, EchoState.Twins.fresh n⟩
    obtain ⟨houtcome, htwins⟩ := run_twin hpatience script hfresh
    exact sameResult_of_twins houtcome htwins
  · exact runAll_tears_down hpatience scripts (EchoState.tracks_fresh options)
      (EchoState.settled_fresh options)

/-- A script that has one text for its first child and three for its second one. -/
def threeTexts : Script :=
  ⟨"/", [⟨1, "RESTART"⟩, ⟨2, "a"⟩, ⟨3, "RESTART"⟩, ⟨4, "b"⟩, ⟨5, "c"⟩, ⟨6, "d"⟩, ⟨7, "RESTART"⟩],
    none⟩

/-- A second child that takes two texts, or ends after two lines, stops a run at its third text, and
where children end at once both of two runs are over. -/
theorem overEcho_limits_third_text :
    ∃ s, (overEcho LimitedSink.sink ⟨0⟩ 3).run threeTexts
          { host := { options := { acceptLines := some 2 } }, sink := {} } =
        (.failed (.write 6 "d" EchoState.inputClosed), s) ∧
      s.host.children.map EchoChild.received = [["a"], ["b", "c"]] ∧
      (overEcho LimitedSink.sink ⟨0⟩ 3).Limited 2 threeTexts
        { host := { options := { acceptLines := some 2 } }, sink := {} } s
        (.failed (.write 6 "d" EchoState.inputClosed)) ∧
      SameResult (.failed (.write 6 "d" EchoState.inputClosed), s)
        ((overEcho LimitedSink.sink ⟨0⟩ 3).run threeTexts
          { host := { options := { exitAfterOutput := some 2 } }, sink := {} }) ∧
      ((overEcho LimitedSink.sink ⟨0⟩ 3).runAll [threeTexts, threeTexts]
        { host := { options := { exitAfterOutput := some 0 } }, sink := {} }).length = 2 := by
  have hrun : ((overEcho LimitedSink.sink ⟨0⟩ 3).run threeTexts
          { host := { options := { acceptLines := some 2 } }, sink := {} }).1 =
        .failed (.write 6 "d" EchoState.inputClosed) ∧
      ((overEcho LimitedSink.sink ⟨0⟩ 3).run threeTexts
          { host := { options := { acceptLines := some 2 } }, sink := {} }).2.host.children.map
        EchoChild.received = [["a"], ["b", "c"]] := by
    decide +kernel
  obtain ⟨hfailed, hreceived⟩ := hrun
  obtain ⟨s, hs⟩ := run_eq_of_fst hfailed
  obtain ⟨hlimited, hsame, hall⟩ :=
    overEcho_limits LimitedSink.sink ⟨0⟩ (show 2 ≤ 3 by decide) {} {}
  have hworks : LimitedSink.sink.Works {} := LimitedSink.works rfl rfl
  have hstops := hlimited 2 threeTexts rfl hworks
  have htwins := hsame 2 threeTexts
  rw [hs] at hreceived hstops htwins
  exact ⟨s, hs, hreceived, hstops, htwins,
    (hall { exitAfterOutput := some 0 } [threeTexts, threeTexts]).1⟩

end Runner

end LineScript
