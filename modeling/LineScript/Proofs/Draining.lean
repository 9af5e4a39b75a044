import LineScript.Proofs.ChildInput

/-!
# Where a run polls

The output of a child is drained after each text that the child takes, and nowhere else. What a
drain may look like is said by its events alone, whatever the child answers and whatever is done
around it. Main result: in the events of every run each text that is taken is followed at once
by a drain of the child that took it, drains are the only places where a child is polled or asked
for its end, and only in a run that comes to no end may the last of them be cut off.
-/

namespace LineScript

/-- Whether an event opens a drain or belongs to one: a text that a child takes, a poll, or the
question whether a child has ended. -/
def Event.isDraining : Event → Bool
  | .send _ _ none | .poll .. | .hasExited .. => true
  | _ => false

/-- What a poll of the given child brings. -/
def Event.polled? (child : Nat) : Event → Option PollOutcome
  | .poll polled _ outcome => if polled = child then some outcome else none
  | _ => none

/-- What the polls of a child bring. -/
def polledIn (child : Nat) (events : List Event) : List PollOutcome :=
  events.filterMap (Event.polled? child)

/-- The drains of a child, complete or cut off. Every line of output is written, and then the
child is asked once whether it has ended. -/
inductive Drain (timeout : Duration) (child : Nat) : Bool → List Event → Prop
  /-- No poll is left. -/
  | cut : Drain timeout child false []
  /-- A poll that brings no line is the last. -/
  | quiet {outcome failure} (h : ∀ output, outcome ≠ .line output) :
      Drain timeout child true [.poll child timeout outcome, .flush failure]
  /-- A line that cannot be written is the last. -/
  | unwritten {output fault} :
      Drain timeout child true
        [.poll child timeout (.line output), .write (Runner.echoLine output) (some fault)]
  /-- A line after which the child has ended is the last. -/
  | exited {output failure} :
      Drain timeout child true
        [.poll child timeout (.line output), .write (Runner.echoLine output) none,
          .hasExited child true, .flush failure]
  /-- After any other line the drain goes on. -/
  | more {complete output events} (h : Drain timeout child complete events) :
      Drain timeout child complete
        (.poll child timeout (.line output) :: .write (Runner.echoLine output) none ::
          .hasExited child false :: events)

/-- Lists of events in which drains stand behind the texts that are taken, and nowhere else. The
last drain may be cut off. -/
inductive Disciplined (timeout : Duration) : Bool → List Event → Prop
  /-- Nothing happens. -/
  | nil : Disciplined timeout true []
  /-- A child takes a text and is drained. -/
  | sent {child text drain complete rest} (h : Drain timeout child true drain)
      (hrest : Disciplined timeout complete rest) :
      Disciplined timeout complete (.send child text none :: (drain ++ rest))
  /-- A child takes a text, and its drain comes to no end. -/
  | cut {child text drain} (h : Drain timeout child false drain) :
      Disciplined timeout false (.send child text none :: drain)
  /-- Something happens that has nothing to do with draining. -/
  | other {event complete rest} (h : event.isDraining = false)
      (hrest : Disciplined timeout complete rest) :
      Disciplined timeout complete (event :: rest)

namespace Disciplined

variable {timeout : Duration} {complete : Bool} {first second : List Event}

/-- After complete drains there may be more. -/
theorem append (hfirst : Disciplined timeout true first)
    (hsecond : Disciplined timeout complete second) :
    Disciplined timeout complete (first ++ second) := by
  generalize hall : true = all at hfirst
  induction hfirst with
  | nil => exact hsecond
  | @sent child text drain _ rest hdrain _ ih =>
    rw [List.cons_append, List.append_assoc]
    exact .sent hdrain (ih hall)
  | cut => cases hall
  | other hevent _ ih => exact .other hevent (ih hall)

/-- What has nothing to do with draining is in order. -/
theorem of_none {events : List Event} (h : ∀ event ∈ events, event.isDraining = false) :
    Disciplined timeout true events := by
  induction events with
  | nil => exact .nil
  | cons event rest ih =>
    obtain ⟨hevent, hrest⟩ := List.forall_mem_cons.mp h
    exact .other hevent (ih hrest)

end Disciplined

namespace Runner

variable {β σ : Type} {r : Runner β σ}

/-- The course of a drain is a drain, cut off only if the bound is reached. -/
theorem Drained.drain {child left : Nat} {books books' : Books} {events : List Event}
    {result : Except Halt Unit} (h : r.Drained child left books events result books') :
    ∃ complete, Drain r.pollTimeout child complete events ∧
      (complete = false → result = .error .unfinished) := by
  induction h with
  | exhausted => exact ⟨false, .cut, fun _ => rfl⟩
  | quiet hquiet => exact ⟨true, .quiet hquiet, nofun⟩
  | unwritten => exact ⟨true, .unwritten, nofun⟩
  | exited => exact ⟨true, .exited, nofun⟩
  | more _ ih =>
    obtain ⟨complete, hdrain, hcut⟩ := ih
    exact ⟨complete, .more hdrain, hcut⟩

/-- Ending a child has nothing to do with draining. -/
theorem Ended.not_draining {child : Option Nat} {events : List Event} {failure : Option Fault}
    (h : Ended child events failure) : ∀ event ∈ events, event.isDraining = false := by
  intro event hmem
  have hending := h.isEnding event hmem
  cases event <;> first | rfl | cases hending

/-- A command drains the child behind a text that it takes, and nowhere else. -/
theorem Executed.disciplined {line : Line} {command : Command} {books books' : Books}
    {events : List Event} {result : Except Halt Unit}
    (h : r.Executed line command books events result books') :
    ∃ complete, Disciplined r.pollTimeout complete events ∧
      (complete = false → result = .error .unfinished) := by
  cases h with
  | unended hended => exact ⟨true, .of_none hended.not_draining, nofun⟩
  | unstarted hended =>
    exact ⟨true, (Disciplined.of_none hended.not_draining).append (.other rfl .nil), nofun⟩
  | restarted hended =>
    exact ⟨true, (Disciplined.of_none hended.not_draining).append (.other rfl .nil), nofun⟩
  | @sent text _ child drain _ _ _ hdrained =>
    obtain ⟨complete, hdrain, hcut⟩ := hdrained.drain
    cases complete with
    | false => exact ⟨false, .other rfl (.other rfl (.cut hdrain)), hcut⟩
    | true =>
      have hsent : Disciplined r.pollTimeout true (.send child text none :: (drain ++ [])) :=
        .sent hdrain .nil
      rw [List.append_nil] at hsent
      exact ⟨true, .other rfl (.other rfl hsent), nofun⟩
  | _ => exact ⟨true, .of_none (by simp [Event.isDraining]), nofun⟩

/-- Lines in turn drain behind the texts that are taken, and nowhere else. -/
theorem Performed.disciplined {s s' : RunState β σ} {lines : List Line} {events : List Event}
    {result : Except Halt Unit} (h : r.Performed s lines events result s') :
    ∃ complete, Disciplined r.pollTimeout complete events ∧
      (complete = false → result = .error .unfinished) := by
  induction h with
  | nil => exact ⟨true, .nil, nofun⟩
  | stopped hline => exact hline.rule.disciplined
  | cons hline _ ih =>
    obtain ⟨own, hown, hcut⟩ := hline.rule.disciplined
    obtain ⟨complete, hrest, hcut'⟩ := ih
    cases own with
    | false => cases hcut rfl
    | true => exact ⟨complete, hown.append hrest, hcut'⟩

/-- Work on the lines that comes to an end is still in order after the clean-up. -/
theorem Performed.disciplined_closing {s s' : RunState β σ} {lines : List Line}
    {events cleanup : List Event} {result : Except Halt Unit} {failure : Option Fault}
    (h : r.Performed s lines events result s') (hover : result ≠ .error .unfinished)
    (hended : Ended s'.child cleanup failure) (closing failed : Option Fault) :
    Disciplined r.pollTimeout true (events ++ (cleanup ++ .flush closing :: farewell failed)) := by
  obtain ⟨complete, hwork, hcut⟩ := h.disciplined
  cases complete with
  | false => exact absurd (hcut rfl) hover
  | true =>
    refine hwork.append (.of_none (List.forall_mem_append.mpr ⟨hended.not_draining, ?_⟩))
    cases failed <;> simp [farewell, Event.isDraining]

/-- A run drains behind the texts that are taken, and nowhere else. -/
theorem Ran.disciplined {script : Script} {s : RunState β σ} {books' : Books}
    {events : List Event} {outcome : Outcome} (h : r.Ran script s events outcome books') :
    ∃ complete, Disciplined r.pollTimeout complete events ∧
      (complete = false → outcome = .unfinished) := by
  cases h with
  | unfinished hlines =>
    obtain ⟨complete, hwork, -⟩ := hlines.disciplined
    exact ⟨complete, hwork, fun _ => rfl⟩
  | failed hlines hended => exact ⟨true, hlines.disciplined_closing nofun hended _ _, nofun⟩
  | unread hlines _ hended => exact ⟨true, hlines.disciplined_closing nofun hended _ _, nofun⟩
  | unended hlines _ hended => exact ⟨true, hlines.disciplined_closing nofun hended _ none, nofun⟩
  | finished hlines _ hended => exact ⟨true, hlines.disciplined_closing nofun hended _ none, nofun⟩

end Runner

/-- Whether every poll of a child brings no line. -/
def IsSilent (child : Nat) (events : List Event) : Prop :=
  ∀ outcome ∈ polledIn child events, ∀ output, outcome ≠ .line output

/-- What the polls of two lists of events bring. -/
theorem polledIn_append (child : Nat) (first second : List Event) :
    polledIn child (first ++ second) = polledIn child first ++ polledIn child second :=
  List.filterMap_append

/-- A drain polls its own child only. -/
theorem Drain.polledIn_of_ne {timeout : Duration} {child other : Nat} {complete : Bool}
    {events : List Event} (h : Drain timeout child complete events) (hne : child ≠ other) :
    polledIn other events = [] := by
  induction h with
  | more _ ih => simpa [polledIn, Event.polled?, hne] using ih
  | _ => simp [polledIn, Event.polled?, hne]

/-- No child takes a text while one is drained. -/
theorem Drain.acceptedBy_eq_nil {timeout : Duration} {child other : Nat} {complete : Bool}
    {events : List Event} (h : Drain timeout child complete events) :
    acceptedBy other events = [] := by
  induction h with
  | more _ ih => exact ih
  | _ => rfl

/-- A silent child is polled once in a drain. -/
theorem Drain.length_polledIn_of_silent {timeout : Duration} {child : Nat} {events : List Event}
    (h : Drain timeout child true events) (hsilent : IsSilent child events) :
    (polledIn child events).length = 1 := by
  have hline (output : String) (rest : List Event)
      (h : IsSilent child (.poll child timeout (.line output) :: rest)) : False :=
    h (.line output) (by simp [polledIn, Event.polled?]) output rfl
  cases h with
  | quiet => simp [polledIn, Event.polled?]
  | unwritten => exact (hline _ _ hsilent).elim
  | exited => exact (hline _ _ hsilent).elim
  | more => exact (hline _ _ hsilent).elim

/-- Where all drains are complete, a silent child is polled once for each text that it takes. -/
theorem Disciplined.length_polledIn_of_silent {timeout : Duration} {child : Nat}
    {events : List Event} (h : Disciplined timeout true events) (hsilent : IsSilent child events) :
    (polledIn child events).length = (acceptedBy child events).length := by
  generalize hall : true = all at h
  induction h with
  | nil => rfl
  | cut => cases hall
  | @sent sender text drain _ rest hdrain _ ih =>
    have hpolled : polledIn child (.send sender text none :: (drain ++ rest)) =
        polledIn child drain ++ polledIn child rest := polledIn_append child drain rest
    have haccepted : acceptedBy child (drain ++ rest) = acceptedBy child rest := by
      rw [acceptedBy_append, hdrain.acceptedBy_eq_nil, List.nil_append]
    rw [IsSilent, hpolled, List.forall_mem_append] at hsilent
    have hrest := ih hsilent.2 hall
    subst hall
    rw [hpolled, List.length_append, hrest]
    by_cases hsender : sender = child
    · subst hsender
      rw [hdrain.length_polledIn_of_silent hsilent.1, ← haccepted]
      simp [acceptedBy, Event.accepted?, Nat.add_comm]
    · rw [hdrain.polledIn_of_ne hsender, ← haccepted]
      simp [acceptedBy, Event.accepted?, hsender]
  | @other event _ rest hevent _ ih =>
    have hother : event.polled? child = none ∧ event.accepted? child = none := by
      cases event with
      | send sender text failure =>
        cases failure with
        | none => cases hevent
        | some fault => exact ⟨rfl, rfl⟩
      | poll => cases hevent
      | _ => exact ⟨rfl, rfl⟩
    have hpolled : polledIn child (event :: rest) = polledIn child rest :=
      List.filterMap_cons_none hother.1
    rw [IsSilent, hpolled] at hsilent
    rw [hpolled, ih hsilent hall, acceptedBy, acceptedBy, List.filterMap_cons_none hother.2]

end LineScript
