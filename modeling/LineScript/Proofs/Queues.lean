import LineScript.Host.Echo
import LineScript.Proofs.Draining
import LineScript.Proofs.DryRun

/-!
# What is queued for polling

A child of a scripted or an echoing host keeps what it has to say in a queue: a text that it takes
adds to the end, and a poll takes the first outcome or none. Main result: over a host of this kind
a drain polls at most once more than outcomes are queued, so that every run comes to an end, and
at every moment what was queued is what was drawn followed by what is left.
-/

namespace LineScript

/-- The line of an outcome. -/
def PollOutcome.line? : PollOutcome → Option String
  | .line text => some text
  | _ => none

/-- How a host queues what its children have to say. -/
structure Host.Queues {β : Type} (host : Host β) where
  /-- What a child has to say. -/
  queue : β → Nat → List PollOutcome
  /-- What a text adds to it. -/
  added : β → Nat → String → List PollOutcome
  /-- What a poll takes of it, if anything. -/
  drawn : β → Nat → Option PollOutcome
  /-- A start leaves every queue alone. -/
  start : ∀ state child env other, queue (host.start state child env).1 other = queue state other
  /-- A text that is taken adds to the queue of its child. -/
  taken : ∀ state child text, (host.send state child text).2 = none →
    queue (host.send state child text).1 child = queue state child ++ added state child text
  /-- A text that is refused leaves the queue alone. -/
  refused : ∀ state child text fault, (host.send state child text).2 = some fault →
    queue (host.send state child text).1 child = queue state child
  /-- A text for another child leaves the queue alone. -/
  send_other : ∀ state child text other, other ≠ child →
    queue (host.send state child text).1 other = queue state other
  /-- A poll takes the first outcome or none. -/
  poll : ∀ state child timeout,
    queue state child =
      (drawn state child).toList ++ queue (host.poll state child timeout).1 child
  /-- A poll of another child leaves the queue alone. -/
  poll_other : ∀ state child timeout other, other ≠ child →
    queue (host.poll state child timeout).1 other = queue state other
  /-- A poll brings what it takes, and no line if it takes nothing. -/
  brings : ∀ state child timeout,
    (host.poll state child timeout).2 ∈ drawn state child ∨
      drawn state child = none ∧ (host.poll state child timeout).2.line? = none
  /-- The question for the end leaves every queue alone. -/
  hasExited : ∀ state child other, queue (host.hasExited state child).1 other = queue state other
  /-- The end of a child leaves every queue alone. -/
  teardown : ∀ state child other, queue (host.teardown state child).1 other = queue state other
  /-- Time leaves every queue alone. -/
  pass : ∀ state duration other, queue (host.pass state duration) other = queue state other

/-- A new element with an empty queue leaves the queues of all elements as they are. -/
theorem elim_getElem?_concat {α γ : Type} (list : List α) {last : α} {queue : α → List γ}
    (h : queue last = []) (k : Nat) :
    (list ++ [last])[k]?.elim [] queue = list[k]?.elim [] queue := by
  rcases Nat.lt_trichotomy k list.length with hlt | rfl | hgt
  · rw [List.getElem?_append_left hlt]
  · rw [List.getElem?_concat_length, List.getElem?_eq_none (Nat.le_refl _), Option.elim_some, h,
      Option.elim_none]
  · rw [List.getElem?_eq_none (by rw [List.length_append]; exact hgt),
      List.getElem?_eq_none (Nat.le_of_lt hgt)]

/-- An element in a new state has the queue of that state, and the others keep theirs. -/
theorem elim_getElem?_set {α γ : Type} {list : List α} {k : Nat} {old : α}
    (h : list[k]? = some old) (new : α) (queue : α → List γ) (j : Nat) :
    (list.set k new)[j]?.elim [] queue = if j = k then queue new else list[j]?.elim [] queue := by
  obtain ⟨hlt, _⟩ := List.getElem?_eq_some_iff.mp h
  split
  · next heq => rw [heq, List.getElem?_set_self hlt, Option.elim_some]
  · next hne => rw [List.getElem?_set_ne (Ne.symm hne)]

namespace ScriptedState

/-- What a planned child has to say. -/
def queue (s : ScriptedState) (number : Nat) : List PollOutcome :=
  s.children[number]?.elim [] PlannedChild.queue

/-- A start adds a child with nothing to say. -/
theorem queue_start (s : ScriptedState) (number : Nat) (env : Environment) (other : Nat) :
    (s.start number env).1.queue other = s.queue other := by
  rw [start]
  split
  · rfl
  · split
    · rfl
    · exact elim_getElem?_concat s.children rfl other

/-- A text is refused and changes nothing, or a child takes it. -/
theorem send_cases (s : ScriptedState) (number : Nat) (text : String) :
    (∃ fault, s.send number text = (s, some fault)) ∨
      ∃ child, s.children[number]? = some child ∧
        s.send number text = ({ s with children := s.children.set number child.take }, none) := by
  rw [send]
  cases s.children[number]? with
  | none => exact .inl ⟨_, rfl⟩
  | some child =>
    dsimp only
    cases child.sendFailure with
    | some fault => exact .inl ⟨_, rfl⟩
    | none => exact .inr ⟨child, rfl, rfl⟩

/-- What a text queues, by the plan of the child. -/
def added (s : ScriptedState) (number : Nat) : List PollOutcome :=
  s.children[number]?.elim [] fun child => child.plan.replies.getD child.taken []

/-- A text that is taken adds to the queue of its child. -/
theorem queue_of_taken {s : ScriptedState} {number : Nat} (text : String)
    (h : (s.send number text).2 = none) :
    (s.send number text).1.queue number = s.queue number ++ s.added number := by
  rcases s.send_cases number text with ⟨fault, hsend⟩ | ⟨child, hchild, hsend⟩
  · rw [hsend] at h
    cases h
  · rw [hsend, queue, elim_getElem?_set hchild, if_pos rfl, queue, added, hchild]
    rfl

/-- A text leaves a queue alone if it is refused or goes to another child. -/
theorem queue_of_untaken {s : ScriptedState} {number other : Nat} (text : String)
    (h : (∃ fault, (s.send number text).2 = some fault) ∨ other ≠ number) :
    (s.send number text).1.queue other = s.queue other := by
  rcases s.send_cases number text with ⟨fault, hsend⟩ | ⟨child, hchild, hsend⟩
  · rw [hsend]
  · rw [hsend] at h ⊢
    rcases h with ⟨fault, hfault⟩ | hother
    · cases hfault
    · rw [queue, elim_getElem?_set hchild, if_neg hother, queue]

/-- A poll takes the first outcome of the queue of its child, and brings it. -/
theorem queue_poll (s : ScriptedState) (number : Nat) (timeout : Duration) :
    s.queue number =
        (s.queue number).head?.toList ++ (s.poll number timeout).1.queue number ∧
      (∀ other ≠ number, (s.poll number timeout).1.queue other = s.queue other) ∧
      ((s.poll number timeout).2 ∈ (s.queue number).head? ∨
        (s.queue number).head? = none ∧ (s.poll number timeout).2.line? = none) := by
  rw [poll]
  cases hchild : s.children[number]? with
  | none =>
    have hempty : s.queue number = [] := by rw [queue, hchild, Option.elim_none]
    dsimp only
    rw [hempty]
    exact ⟨rfl, fun _ _ => rfl, .inr ⟨rfl, rfl⟩⟩
  | some child =>
    have hown : s.queue number = child.queue := by rw [queue, hchild, Option.elim_some]
    dsimp only
    refine ⟨?_, fun other hother => ?_, ?_⟩
    · rw [hown, queue, elim_getElem?_set hchild, if_pos rfl, PlannedChild.poll]
      cases child.queue with
      | nil => rfl
      | cons outcome rest => rfl
    · rw [queue, elim_getElem?_set hchild, if_neg hother, queue]
    · rw [hown, PlannedChild.poll]
      cases child.queue with
      | nil => exact .inr ⟨rfl, rfl⟩
      | cons outcome rest => exact .inl rfl

/-- The queues of children with plans. -/
def queues (program : String) : (ScriptedState.host program).Queues where
  queue := queue
  added s number _ := s.added number
  drawn s number := (s.queue number).head?
  start := queue_start
  taken _ _ text h := queue_of_taken text h
  refused _ _ text fault h := queue_of_untaken text (.inl ⟨fault, h⟩)
  send_other _ _ text _ h := queue_of_untaken text (.inr h)
  poll s number timeout := (s.queue_poll number timeout).1
  poll_other s number timeout other h := (s.queue_poll number timeout).2.1 other h
  brings s number timeout := (s.queue_poll number timeout).2.2
  hasExited _ _ _ := rfl
  teardown _ _ _ := rfl
  pass _ _ _ := rfl

end ScriptedState

namespace EchoState

/-- What an echoing child has to say. -/
def queue (s : EchoState) (number : Nat) : List PollOutcome :=
  s.children[number]?.elim [] fun child => child.pending.map .line

/-- What a text queues: itself, unless the children are silent. -/
def added (s : EchoState) (text : String) : List PollOutcome :=
  if s.options.silent then [] else [.line text]

/-- What a poll takes of the queue of an echoing child: nothing once its output is closed. -/
def drawn (s : EchoState) (number : Nat) : Option PollOutcome :=
  s.children[number]?.bind fun child =>
    if EchoChild.reached s.options.closeOutputAfter child.printed then none
    else child.pending.head?.map .line

/-- A start adds a child with nothing to say. -/
theorem queue_start (s : EchoState) (number : Nat) (env : Environment) (other : Nat) :
    (s.start number env).1.queue other = s.queue other := by
  rw [start]
  split
  · rfl
  · exact elim_getElem?_concat s.children rfl other

/-- A text is refused and changes nothing, or a child takes it. -/
theorem send_cases (s : EchoState) (number : Nat) (text : String) :
    (∃ fault, s.send number text = (s, some fault)) ∨
      ∃ child taken, s.children[number]? = some child ∧
        s.send number text = ({ s with children := s.children.set number taken }, none) ∧
        taken.pending.map .line = child.pending.map .line ++ s.added text := by
  rw [send]
  cases s.children[number]? with
  | none => exact .inl ⟨_, rfl⟩
  | some child =>
    rw [Option.bind_some]
    cases hsend : child.send s.options text with
    | none => exact .inl ⟨_, rfl⟩
    | some taken =>
      refine .inr ⟨child, taken, rfl, rfl, ?_⟩
      rw [EchoChild.send] at hsend
      split at hsend
      · cases hsend
      · cases hsend
        rw [added]
        split
        · exact (List.append_nil _).symm
        · exact List.map_append

/-- A text that is taken adds to the queue of its child. -/
theorem queue_of_taken {s : EchoState} {number : Nat} (text : String)
    (h : (s.send number text).2 = none) :
    (s.send number text).1.queue number = s.queue number ++ s.added text := by
  rcases s.send_cases number text with ⟨fault, hsend⟩ | ⟨child, taken, hchild, hsend, hpending⟩
  · rw [hsend] at h
    cases h
  · rw [hsend, queue, elim_getElem?_set hchild, if_pos rfl, hpending, queue, hchild,
      Option.elim_some]

/-- A text leaves a queue alone if it is refused or goes to another child. -/
theorem queue_of_untaken {s : EchoState} {number other : Nat} (text : String)
    (h : (∃ fault, (s.send number text).2 = some fault) ∨ other ≠ number) :
    (s.send number text).1.queue other = s.queue other := by
  rcases s.send_cases number text with ⟨fault, hsend⟩ | ⟨child, taken, hchild, hsend, _⟩
  · rw [hsend]
  · rw [hsend] at h ⊢
    rcases h with ⟨fault, hfault⟩ | hother
    · cases hfault
    · rw [queue, elim_getElem?_set hchild, if_neg hother, queue]

/-- A poll takes the first line of the queue of its child and brings it, unless the output is
closed. -/
theorem queue_poll (s : EchoState) (number : Nat) (timeout : Duration) :
    s.queue number =
        (s.drawn number).toList ++ (s.poll number timeout).1.queue number ∧
      (∀ other ≠ number, (s.poll number timeout).1.queue other = s.queue other) ∧
      ((s.poll number timeout).2 ∈ s.drawn number ∨
        s.drawn number = none ∧ (s.poll number timeout).2.line? = none) := by
  rw [poll, drawn]
  cases hchild : s.children[number]? with
  | none => exact ⟨rfl, fun _ _ => rfl, .inr ⟨rfl, rfl⟩⟩
  | some child =>
    have hown : s.queue number = child.pending.map .line := by
      rw [queue, hchild, Option.elim_some]
    dsimp only
    rw [Option.bind_some]
    refine ⟨?_, fun other hother => ?_, ?_⟩
    · rw [hown, queue, elim_getElem?_set hchild, if_pos rfl, EchoChild.poll]
      split
      · rfl
      · cases hpending : child.pending with
        | nil => exact (congrArg (List.map PollOutcome.line) hpending).symm
        | cons line rest => rfl
    · rw [queue, elim_getElem?_set hchild, if_neg hother, queue]
    · rw [EchoChild.poll]
      split
      · exact .inr ⟨rfl, rfl⟩
      · cases child.pending with
        | nil => exact .inr ⟨rfl, rfl⟩
        | cons line rest => exact .inl rfl

/-- Ending a child leaves what the children have to say. -/
theorem queue_teardown (s : EchoState) (number other : Nat) :
    (s.teardown number).1.queue other = s.queue other := by
  rw [teardown]
  cases hchild : s.children[number]? with
  | none => rfl
  | some child =>
    dsimp only
    split
    · rfl
    · rw [queue, elim_getElem?_set hchild, queue]
      split
      · next heq => rw [heq, hchild, Option.elim_some]
      · rfl

/-- The queues of echoing children. -/
def queues : EchoState.host.Queues where
  queue := queue
  added s _ text := s.added text
  drawn := drawn
  start := queue_start
  taken _ _ text h := queue_of_taken text h
  refused _ _ text fault h := queue_of_untaken text (.inl ⟨fault, h⟩)
  send_other _ _ text _ h := queue_of_untaken text (.inr h)
  poll s number timeout := (s.queue_poll number timeout).1
  poll_other s number timeout other h := (s.queue_poll number timeout).2.1 other h
  brings s number timeout := (s.queue_poll number timeout).2.2
  hasExited _ _ _ := rfl
  teardown := queue_teardown
  pass _ _ _ := rfl

end EchoState

end LineScript
