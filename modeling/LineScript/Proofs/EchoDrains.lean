import LineScript.Proofs.EchoRecord

/-!
# How long an echoing child is drained

Before a line of the script no child of an echoing host has anything to say, unless its output is
closed. A text that is taken makes its child owe one line, the first poll takes that line, and the
second one brings nothing. Main result: with a patience of two polls no run over an echoing host is
left unfinished, and what holds before a run holds after it.
-/

namespace LineScript

namespace EchoChild

/-- Whether a child has at most so many lines to say, or its output is closed. -/
def Owes (options : EchoOptions) (child : EchoChild) (due : Nat) : Prop :=
  reached options.closeOutputAfter child.printed = true ∨ child.pending.length ≤ due

variable {options : EchoOptions} {child child' : EchoChild}

/-- A line that is taken is to be said. -/
theorem Owes.send {due : Nat} (h : child.Owes options due) {line : String}
    (hsend : child.send options line = some child') : child'.Owes options (due + 1) := by
  obtain ⟨-, -, rfl⟩ := send_eq_some hsend
  refine h.imp id fun hle => ?_
  dsimp only
  split_ifs
  · exact Nat.le_succ_of_le hle
  · rw [List.length_append]
    exact Nat.succ_le_succ hle

/-- A poll takes a line, if there is one to say. -/
theorem Owes.poll {due : Nat} (h : child.Owes options (due + 1)) :
    (child.poll options).1.Owes options due := by
  rw [EchoChild.poll]
  split_ifs with hclosed
  · exact .inl hclosed
  · have hle := h.resolve_left hclosed
    cases hpending : child.pending with
    | nil =>
      have hnothing : child.pending.length ≤ due := by
        rw [hpending]
        exact Nat.zero_le due
      exact .inr hnothing
    | cons line rest =>
      rw [hpending] at hle
      exact .inr (Nat.le_of_succ_le_succ hle)

/-- A child with nothing to say is polled in vain. -/
theorem Owes.poll_ne_line (h : child.Owes options 0) (output : String) :
    (child.poll options).2 ≠ .line output := by
  rw [EchoChild.poll]
  split_ifs with hclosed
  · rintro ⟨⟩
  · rw [List.eq_nil_of_length_eq_zero (Nat.le_zero.mp (h.resolve_left hclosed))]
    rintro ⟨⟩

end EchoChild

namespace EchoState

/-- Whether no child but one has anything to say, and that one at most so many lines. -/
def Owes (s : EchoState) (number due : Nat) : Prop :=
  ∀ (other : Nat) (child : EchoChild), s.children[other]? = some child →
    child.Owes s.options (if other = number then due else 0)

/-- Whether no child has anything to say. -/
def Settled (s : EchoState) : Prop :=
  ∀ (number : Nat) (child : EchoChild), s.children[number]? = some child →
    child.Owes s.options 0

variable {s : EchoState}

/-- A fresh host has no child. -/
theorem settled_fresh (options : EchoOptions) : Settled { options } := nofun

/-- A new child has nothing to say. -/
theorem Settled.start (h : s.Settled) (number : Nat) (env : Environment) :
    (s.start number env).1.Settled := by
  rw [EchoState.start]
  split_ifs
  · exact h
  · intro other child hchild
    rcases Nat.lt_trichotomy other s.children.length with hlt | rfl | hgt
    · rw [List.getElem?_append_left hlt] at hchild
      exact h other child hchild
    · rw [List.getElem?_concat_length] at hchild
      cases hchild
      exact .inr le_rfl
    · rw [List.getElem?_eq_none (by rw [List.length_append]; exact hgt)] at hchild
      cases hchild

/-- After a text one child may have one line to say. -/
theorem Settled.send (h : s.Settled) (number : Nat) (text : String) :
    (s.send number text).1.Owes number 1 := by
  rw [EchoState.send]
  cases htaken : s.children[number]?.bind (·.send s.options text) with
  | none =>
    exact fun other child hchild =>
      (h other child hchild).imp id fun hle => hle.trans (Nat.zero_le _)
  | some child' =>
    obtain ⟨child, hchild, hsend⟩ := Option.bind_eq_some_iff.mp htaken
    refine forall_getElem?_set (fun other kept hother hne => ?_) ?_
    · rw [if_neg hne]
      exact h other kept hother
    · rw [if_pos rfl]
      exact (h number child hchild).send hsend

/-- The first poll takes the line. -/
theorem Owes.poll {number : Nat} (h : s.Owes number 1) (timeout : Duration) :
    (s.poll number timeout).1.Settled := by
  rw [EchoState.poll]
  cases hchild : s.children[number]? with
  | none =>
    intro other kept hother
    have hne : other ≠ number := by
      rintro rfl
      rw [hchild] at hother
      cases hother
    have howes := h other kept hother
    rwa [if_neg hne] at howes
  | some child =>
    refine forall_getElem?_set (fun other kept hother hne => ?_) ?_
    · have howes := h other kept hother
      rwa [if_neg hne] at howes
    · have howes := h number child hchild
      rw [if_pos rfl] at howes
      exact howes.poll

/-- Where nobody has anything to say, a poll brings no line. -/
theorem Settled.poll_ne_line (h : s.Settled) (number : Nat) (timeout : Duration)
    (output : String) : (s.poll number timeout).2 ≠ .line output := by
  rw [EchoState.poll]
  cases hchild : s.children[number]? with
  | none => rintro ⟨⟩
  | some child => exact (h number child hchild).poll_ne_line output

/-- The end of a child leaves what children have to say. -/
theorem Settled.teardown (h : s.Settled) (number : Nat) : (s.teardown number).1.Settled := by
  rw [EchoState.teardown]
  cases hchild : s.children[number]? with
  | none => exact h
  | some child =>
    dsimp only
    split_ifs
    · exact h
    · refine forall_getElem?_set (fun other kept hother _ => h other kept hother) ?_
      exact h number child hchild

/-- A text that is refused changes nothing. -/
theorem send_of_refused {number : Nat} {text : String} {fault : Fault}
    (h : (s.send number text).2 = some fault) : (s.send number text).1 = s := by
  rw [EchoState.send] at h ⊢
  cases htaken : s.children[number]?.bind (·.send s.options text) with
  | none => rfl
  | some child =>
    rw [htaken] at h
    cases h

/-- Where nobody has anything to say, nobody has more to say than it may. -/
theorem Settled.owes (h : s.Settled) (number due : Nat) : s.Owes number due :=
  fun other child hchild => (h other child hchild).imp id fun hle => hle.trans (Nat.zero_le _)

end EchoState

/-- Whether an event is a text that a child takes. -/
def Event.isTaken : Event → Bool
  | .send _ _ none => true
  | _ => false

namespace Runner

open EchoState (Settled)

variable {σ : Type} {sink : Sink σ} {pollTimeout : Duration} {patience : Nat}
  {p q t : Parties EchoState σ} {events : List Event} {books books' : Books}
  {result : Except Halt Unit}

/-- Without a text that is taken nobody has anything to say after a call. -/
theorem settled_after (h : p.host.Settled) {event : Event} (hevent : event.isTaken = false)
    (hanswer : (overEcho sink pollTimeout patience).Answers p event) :
    ((overEcho sink pollTimeout patience).after p event).host.Settled := by
  cases event with
  | start number env failure => exact h.start number env
  | send number text failure =>
    cases failure with
    | none => cases hevent
    | some fault =>
      rw [← EchoState.send_of_refused hanswer] at h
      exact h
  | poll number timeout outcome => exact (h.owes number 1).poll timeout
  | teardown number answer => exact h.teardown number
  | _ => exact h

/-- Without a text that is taken nobody has anything to say after calls in turn. -/
theorem settled_afterAll (h : p.host.Settled) (hevents : ∀ event ∈ events, event.isTaken = false)
    (htalk : (overEcho sink pollTimeout patience).Conversation p events q) : q.host.Settled := by
  induction events generalizing p with
  | nil =>
    cases htalk
    exact h
  | cons event rest ih =>
    obtain ⟨hevent, hrest⟩ := List.forall_mem_cons.mp hevents
    exact ih (settled_after h hevent htalk.1) hrest htalk.2

/-- Ending a child sends no text. -/
theorem Ended.isTaken_eq_false {child : Option Nat} {failure : Option Fault}
    (h : Ended child events failure) : ∀ event ∈ events, event.isTaken = false := by
  intro event hmem
  have hending := h.isEnding event hmem
  cases event with
  | send => cases hending
  | _ => rfl

/-- A call that fails is no end without failure. -/
theorem after_ne_unfinished (failure : Option Fault) (error : Fault → RunError) :
    Halt.after failure error ≠ .error .unfinished := by
  cases failure <;> exact nofun

/-- A child that owes one line is drained in two polls. -/
theorem Drained.settles {child left : Nat}
    (h : (overEcho sink pollTimeout patience).Drained child (left + 2) books events result books')
    (htalk : (overEcho sink pollTimeout patience).Conversation p events q)
    (howes : p.host.Owes child 1) : result ≠ .error .unfinished ∧ q.host.Settled := by
  have hfirst := howes.poll pollTimeout
  cases h with
  | quiet =>
    obtain ⟨-, -, rfl⟩ := htalk
    exact ⟨after_ne_unfinished _ _, hfirst⟩
  | unwritten =>
    obtain ⟨-, -, rfl⟩ := htalk
    exact ⟨nofun, hfirst⟩
  | exited =>
    obtain ⟨-, -, -, -, rfl⟩ := htalk
    exact ⟨after_ne_unfinished _ _, hfirst⟩
  | more hmore =>
    obtain ⟨-, -, -, hagain⟩ := htalk
    -- The second poll brings no line, so that the drain is over.
    cases hmore with
    | quiet =>
      obtain ⟨-, -, rfl⟩ := hagain
      exact ⟨after_ne_unfinished _ _, (hfirst.owes child 1).poll pollTimeout⟩
    | unwritten => exact absurd hagain.1 (hfirst.poll_ne_line child pollTimeout _)
    | exited => exact absurd hagain.1 (hfirst.poll_ne_line child pollTimeout _)
    | more => exact absurd hagain.1 (hfirst.poll_ne_line child pollTimeout _)

/-- A command comes to an end and leaves nobody with anything to say. -/
theorem Executed.settles {line : Line} {command : Command} (hpatience : 2 ≤ patience)
    (h : (overEcho sink pollTimeout patience).Executed line command books events result books')
    (htalk : (overEcho sink pollTimeout patience).Conversation p events q)
    (hsettled : p.host.Settled) : result ≠ .error .unfinished ∧ q.host.Settled := by
  have hquiet (hevents : ∀ event ∈ events, event.isTaken = false) : q.host.Settled :=
    settled_afterAll hsettled hevents htalk
  cases h with
  | @sent _ _ child events result books' _ hdrained =>
    obtain ⟨-, -, -, hdrains⟩ := htalk
    obtain ⟨left, rfl⟩ : ∃ left, patience = left + 2 := ⟨patience - 2, by omega⟩
    exact hdrained.settles hdrains (hsettled.send child _)
  | unended hended => exact ⟨nofun, hquiet hended.isTaken_eq_false⟩
  | unstarted hended =>
    refine ⟨nofun, hquiet (List.forall_mem_append.mpr ⟨hended.isTaken_eq_false, ?_⟩)⟩
    exact List.forall_mem_singleton.mpr rfl
  | restarted hended =>
    refine ⟨nofun, hquiet (List.forall_mem_append.mpr ⟨hended.isTaken_eq_false, ?_⟩)⟩
    exact List.forall_mem_singleton.mpr rfl
  | skipMode => exact ⟨after_ne_unfinished _ _, hquiet (by simp [Event.isTaken])⟩
  | _ => exact ⟨nofun, hquiet (by simp [Event.isTaken])⟩

/-- Lines in turn come to an end and leave nobody with anything to say. -/
theorem Performed.settles {s s' : RunState EchoState σ} {lines : List Line}
    (hpatience : 2 ≤ patience)
    (h : (overEcho sink pollTimeout patience).Performed s lines events result s')
    (hsettled : s.host.Settled) : result ≠ .error .unfinished ∧ s'.host.Settled := by
  induction h with
  | nil => exact ⟨nofun, hsettled⟩
  | stopped hline => exact hline.rule.settles hpatience hline.does.answered hsettled
  | cons hline _ ih => exact ih (hline.rule.settles hpatience hline.does.answered hsettled).2

/-- What comes after a part of a conversation begins where the part ends. -/
theorem Conversation.rest {β : Type} {r : Runner β σ} {p q t : Parties β σ}
    {first second : List Event} (hall : r.Conversation p (first ++ second) q)
    (hfirst : r.Conversation p first t) : r.Conversation t second q := by
  induction first generalizing p with
  | nil =>
    cases hfirst
    exact hall
  | cons event rest ih => exact ih hall.2 hfirst.2

/-- A run comes to an end and leaves nobody with anything to say. -/
theorem Ran.settles {script : Script} {s s' : RunState EchoState σ} {outcome : Outcome}
    (hpatience : 2 ≤ patience)
    (h : (overEcho sink pollTimeout patience).Ran script s events outcome s'.books)
    (htalk : (overEcho sink pollTimeout patience).Conversation s.parties events s'.parties)
    (hsettled : s.host.Settled) : outcome ≠ .unfinished ∧ s'.host.Settled := by
  obtain ⟨work, result, s₁, hworked⟩ := h.worked
  obtain ⟨hends, hsettled₁⟩ := hworked.performed.settles hpatience hsettled
  obtain ⟨closing, rfl, hquiet⟩ := hworked.closing
  have hclosing : ∀ event ∈ closing, event.isTaken = false := by
    intro event hmem
    have hnone : event.delivery? = none := List.filterMap_eq_nil_iff.mp hquiet event hmem
    cases event with
    | send => cases hnone
    | _ => rfl
  refine ⟨fun hunfinished => hends (hworked.unfinished hunfinished), ?_⟩
  exact settled_afterAll (p := s₁.parties) hsettled₁ hclosing
    (htalk.rest hworked.performed.does.answered)

/-- Scripts in a row over an echoing host are all run. After each of them no child lives, there was
at most one at a time, and every child was torn down once. -/
theorem runAll_tears_down {options : EchoOptions} {events : List Event}
    (hpatience : 2 ≤ patience) (scripts : List Script) {s : RunState EchoState σ}
    (htracks : s.host.Tracks options s.books.custody events) (hsettled : s.host.Settled) :
    ((overEcho sink pollTimeout patience).runAll scripts s).length = scripts.length ∧
      ∀ result ∈ (overEcho sink pollTimeout patience).runAll scripts s,
        result.1 ≠ .unfinished ∧ result.2.host.live = 0 ∧ result.2.host.mostLive ≤ 1 ∧
          result.2.host.teardowns = result.2.host.children.length := by
  induction scripts generalizing s events with
  | nil => exact ⟨rfl, List.forall_mem_nil _⟩
  | cons script rest ih =>
    rcases hrun : (overEcho sink pollTimeout patience).run script s with ⟨outcome, s'⟩
    obtain ⟨more, -, htalk, hran⟩ := ran_of_run hrun
    obtain ⟨hends, hsettled'⟩ := hran.settles hpatience htalk hsettled
    have htracks' := htracks.append (p := s.parties) hran.keeps htalk
    have hnone : s'.books.custody.child = none := hran.child_eq_none hends
    obtain ⟨hlength, hrest⟩ := ih htracks' hsettled'
    rw [runAll, hrun, if_neg hends]
    exact ⟨congrArg (· + 1) hlength, List.forall_mem_cons.mpr ⟨⟨hends, htracks'.live_eq_zero hnone,
      htracks'.mostLive_le, htracks'.teardowns_eq_length hnone⟩, hrest⟩⟩

end Runner

end LineScript
