import LineScript.Proofs.Course

/-!
# The lifecycle of children

A runner is responsible for its children: it starts one only when it has none,
uses only the one that it has, and ends every child that it started. What a
list of events tells about children is read off the list itself; the custody of
a runner is the invariant that links it to the books. Main result: over any
scripts run one after the other, on any host and any sink, every call of the
host is made in time, and whenever a run is over every child was ended exactly
once.
-/

namespace LineScript

namespace Event

/-- The child that an event brings to life. -/
def started? : Event → Option Nat
  | .start child _ none => some child
  | _ => none

/-- The child that an event ends, or tries to end. -/
def ended? : Event → Option Nat
  | .teardown child _ => some child
  | _ => none

/-- The child that an event makes use of. -/
def used? : Event → Option Nat
  | .send child _ _ | .poll child _ _ | .hasExited child _ => some child
  | _ => none

end Event

/-- The children that were started, in order. -/
def startedIn (events : List Event) : List Nat := events.filterMap Event.started?

/-- The children that a teardown was called on, in order, one entry for each
call. -/
def endedIn (events : List Event) : List Nat := events.filterMap Event.ended?

/-- One more event adds the child that it starts. -/
theorem startedIn_concat (before : List Event) (event : Event) :
    startedIn (before ++ [event]) = startedIn before ++ event.started?.toList := by
  rw [startedIn, List.filterMap_append]
  cases h : event.started? <;> simp [startedIn, h]

/-- One more event adds the child that it ends. -/
theorem endedIn_concat (before : List Event) (event : Event) :
    endedIn (before ++ [event]) = endedIn before ++ event.ended?.toList := by
  rw [endedIn, List.filterMap_append]
  cases h : event.ended? <;> simp [endedIn, h]

/-- Which child a runner is responsible for. -/
structure Custody where
  /-- The child that lives. -/
  child : Option Nat
  /-- How many children were started so far. -/
  started : Nat

/-- The custody that the books show. -/
def Books.custody (books : Books) : Custody := ⟨books.child, books.started⟩

namespace Custody

/-- The calls that a custody allows, with the custody after each. -/
inductive Allows : Custody → Event → Custody → Prop
  /-- A child is started under the next number. -/
  | started {n env} : Allows ⟨none, n⟩ (.start n env none) ⟨some n, n + 1⟩
  /-- A start fails. -/
  | refused {n env fault} : Allows ⟨none, n⟩ (.start n env (some fault)) ⟨none, n⟩
  /-- The child is used. -/
  | used {child n call} (h : call.used? = some child) : Allows ⟨some child, n⟩ call ⟨some child, n⟩
  /-- The child is ended. -/
  | ended {child n answer} : Allows ⟨some child, n⟩ (.teardown child answer) ⟨none, n⟩
  /-- The host is not called. -/
  | other {k event} (h : event.isHostCall = false) : Allows k event k

/-- The events that a custody allows in turn, with the custody after them. -/
inductive Keeps : Custody → List Event → Custody → Prop
  /-- Nothing happens. -/
  | nil {k} : Keeps k [] k
  /-- Something happens, and then more. -/
  | cons {k k' k'' event events} (h : Allows k event k') (hrest : Keeps k' events k'') :
      Keeps k (event :: events) k''

/-- Allowed events may follow each other. -/
theorem Keeps.append {k k' k'' : Custody} {first second : List Event}
    (hfirst : Keeps k first k') (hsecond : Keeps k' second k'') :
    Keeps k (first ++ second) k'' := by
  induction hfirst with
  | nil => exact hsecond
  | cons h _ ih => exact .cons h (ih hsecond)

/-- Between two pieces of allowed events there is a custody. -/
theorem Keeps.split {k k'' : Custody} {first second : List Event}
    (h : Keeps k (first ++ second) k'') : ∃ k', Keeps k first k' ∧ Keeps k' second k'' := by
  induction first generalizing k with
  | nil => exact ⟨k, .nil, h⟩
  | cons event first ih =>
    cases h with
    | cons hallows hrest =>
      obtain ⟨k', hfirst, hsecond⟩ := ih hrest
      exact ⟨k', .cons hallows hfirst, hsecond⟩

/-- Whether a custody is what a list of events amounts to: the children are
numbered in the order of their starts, and all but the one that lives were
ended, each once and in the same order. -/
structure Records (k : Custody) (events : List Event) : Prop where
  /-- The children that were started. -/
  started : startedIn events = List.range k.started
  /-- The children that were ended, and the one that lives. -/
  ended : endedIn events ++ k.child.toList = List.range k.started

/-- An allowed event keeps the record. -/
theorem Records.step {k k' : Custody} {before : List Event} {event : Event}
    (hk : k.Records before) (h : Allows k event k') : k'.Records (before ++ [event]) := by
  obtain ⟨hstarted, hended⟩ := hk
  -- An event that neither starts nor ends a child changes neither list.
  have hquiet (hs : event.started? = none) (he : event.ended? = none) :
      k.Records (before ++ [event]) := by
    constructor
    · rw [startedIn_concat, hs, hstarted]
      exact List.append_nil _
    · rw [endedIn_concat, he, Option.toList_none, List.append_nil, hended]
  cases h with
  | started =>
    rw [Option.toList_none, List.append_nil] at hended
    constructor
    · rw [startedIn_concat, hstarted, List.range_succ]
      rfl
    · rw [endedIn_concat, hended, List.range_succ]
      simp [Event.ended?]
  | refused => exact hquiet rfl rfl
  | used hused =>
    cases event <;> first | exact hquiet rfl rfl | simp [Event.used?] at hused
  | ended =>
    constructor
    · rw [startedIn_concat, hstarted]
      exact List.append_nil _
    · rw [endedIn_concat, ← hended]
      simp [Event.ended?]
  | other hother =>
    cases event <;> first | exact hquiet rfl rfl | simp [Event.isHostCall] at hother

/-- Allowed events keep the record. -/
theorem Records.append {k k' : Custody} {before events : List Event}
    (hk : k.Records before) (h : Keeps k events k') : k'.Records (before ++ events) := by
  induction h generalizing before with
  | nil => rwa [List.append_nil]
  | cons hevent _ ih =>
    rw [List.append_cons]
    exact ih (hk.step hevent)

end Custody

open Custody

namespace Runner

variable {β σ : Type} {r : Runner β σ}

/-- A drain makes use of its child and leaves it in custody. -/
theorem Drained.keeps {child left started : Nat} {books books' : Books} {events : List Event}
    {result : Except Halt Unit} (h : r.Drained child left books events result books') :
    Keeps ⟨some child, started⟩ events ⟨some child, started⟩ := by
  induction h with
  | exhausted => exact .nil
  | quiet => exact .cons (.used rfl) (.cons (.other rfl) .nil)
  | unwritten => exact .cons (.used rfl) (.cons (.other rfl) .nil)
  | exited =>
    exact .cons (.used rfl) (.cons (.other rfl) (.cons (.used rfl) (.cons (.other rfl) .nil)))
  | more _ ih => exact .cons (.used rfl) (.cons (.other rfl) (.cons (.used rfl) ih))

/-- The end of the child leaves nothing in custody. -/
theorem Ended.keeps {child : Option Nat} {started : Nat} {events : List Event}
    {failure : Option Fault} (h : Ended child events failure) :
    Keeps ⟨child, started⟩ events ⟨none, started⟩ := by
  cases h with
  | absent => exact .nil
  | @called child answer =>
    obtain ⟨failure, killedAfter⟩ := answer
    cases killedAfter with
    | none => exact .cons .ended .nil
    | some => exact .cons (.other rfl) (.cons .ended .nil)

/-- A command makes only calls that the custody allows. -/
theorem Executed.keeps {line : Line} {command : Command} {books books' : Books}
    {events : List Event} {result : Except Halt Unit}
    (h : r.Executed line command books events result books') :
    Keeps books.custody events books'.custody := by
  cases h with
  | nothing => exact .nil
  | skipMode => exact .cons (.other rfl) .nil
  | unended hended => exact hended.keeps
  | unstarted hended => exact hended.keeps.append (.cons .refused .nil)
  | restarted hended => exact hended.keeps.append (.cons .started .nil)
  | dropped => exact .nil
  | unwritten => exact .cons (.other rfl) .nil
  | unflushed => exact .cons (.other rfl) (.cons (.other rfl) .nil)
  | refused hchild =>
    rw [Books.custody, hchild]
    exact .cons (.other rfl) (.cons (.other rfl) (.cons (.used rfl) .nil))
  | sent hchild hdrained =>
    rw [hdrained.books_eq, Books.custody, Books.custody, Books.countSent, hchild]
    exact .cons (.other rfl) (.cons (.other rfl) (.cons (.used rfl) hdrained.keeps))
  | unannounced => exact .cons (.other rfl) .nil
  | unshown => exact .cons (.other rfl) (.cons (.other rfl) .nil)
  | slept => exact .cons (.other rfl) (.cons (.other rfl) (.cons (.other rfl) .nil))
  | malformed => exact .cons (.other rfl) .nil

/-- Lines in turn make only calls that the custody allows. -/
theorem Performed.keeps {s s' : RunState β σ} {lines : List Line} {events : List Event}
    {result : Except Halt Unit} (h : r.Performed s lines events result s') :
    Keeps s.books.custody events s'.books.custody := by
  induction h with
  | nil => exact .nil
  | stopped hline => exact hline.rule.keeps
  | cons hline _ ih => exact hline.rule.keeps.append ih

/-- What comes at the end of a run is no call of the host. -/
theorem keeps_farewell (k : Custody) (closing failure : Option Fault) :
    Keeps k (.flush closing :: farewell failure) k := by
  cases failure with
  | none => exact .cons (.other rfl) .nil
  | some => exact .cons (.other rfl) (.cons (.other rfl) .nil)

/-- A run makes only calls that the custody allows. -/
theorem Ran.keeps {script : Script} {s : RunState β σ} {books' : Books} {events : List Event}
    {outcome : Outcome} (h : r.Ran script s events outcome books') :
    Keeps s.books.custody events books'.custody := by
  cases h with
  | unfinished hlines => exact hlines.keeps
  | failed hlines hended =>
    exact hlines.keeps.append (hended.keeps.append (keeps_farewell _ _ _))
  | unread hlines _ hended =>
    exact hlines.keeps.append (hended.keeps.append (keeps_farewell _ _ _))
  | unended hlines _ hended =>
    exact hlines.keeps.append (hended.keeps.append (keeps_farewell _ _ none))
  | finished hlines _ hended =>
    exact hlines.keeps.append (hended.keeps.append (keeps_farewell _ _ none))

/-- No child is left when a run is over. -/
theorem Ran.child_eq_none {script : Script} {s : RunState β σ} {books' : Books}
    {events : List Event} {outcome : Outcome} (h : r.Ran script s events outcome books')
    (hover : outcome ≠ .unfinished) : books'.child = none := by
  cases h with
  | unfinished => exact absurd rfl hover
  | _ => rfl

end Runner

end LineScript
