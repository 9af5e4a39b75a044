import LineScript.Host

/-!
# Children with a given behaviour

A host that starts one child after the other from a list, each with its own
behaviour: the outcomes that each line queues for polling, where sending fails,
when the child counts as ended, and whether starting or ending it fails. What a
poll does not take stays in the queue for the next one.
-/

namespace LineScript

/-- The behaviour of one child. -/
structure ChildPlan where
  /-- The failure of its start. -/
  startFailure : Option Fault := none
  /-- The outcomes that the lines queue, one list for each line taken. -/
  replies : List (List PollOutcome) := []
  /-- Sending fails so, once that many lines were taken. -/
  sendFailure : Option (Nat × Fault) := none
  /-- It has ended once it was polled that often; never, if absent. -/
  exitAfterPolls : Option Nat := none
  /-- The failure of its end. -/
  teardownFailure : Option Fault := none

/-- A started child. -/
structure PlannedChild where
  /-- Its behaviour. -/
  plan : ChildPlan
  /-- Outcomes that are queued. -/
  queue : List PollOutcome := []
  /-- How many lines it has taken. -/
  taken : Nat := 0
  /-- How often it was polled. -/
  polls : Nat := 0

/-- A host with plans for its children. -/
structure ScriptedState where
  /-- The plans of the starts to come. -/
  coming : List ChildPlan := []
  /-- The children that were started. -/
  children : List PlannedChild := []

namespace PlannedChild

/-- A child that has taken a line. -/
def take (child : PlannedChild) : PlannedChild :=
  { child with
    queue := child.queue ++ child.plan.replies.getD child.taken []
    taken := child.taken + 1 }

/-- The failure of sending to a child as it is. -/
def sendFailure (child : PlannedChild) : Option Fault :=
  child.plan.sendFailure.bind fun failing =>
    if child.taken = failing.1 then some failing.2 else none

/-- A child after a poll, and the outcome. -/
def poll (child : PlannedChild) : PlannedChild × PollOutcome :=
  let polled := { child with polls := child.polls + 1 }
  match child.queue with
  | outcome :: rest => ({ polled with queue := rest }, outcome)
  | [] => (polled, .timeout)

/-- Whether a child has ended. -/
def hasExited (child : PlannedChild) : Bool := child.plan.exitAfterPolls.any (· ≤ child.polls)

end PlannedChild

namespace ScriptedState

/-- The failure of a start beyond the last plan. -/
def noMoreChildren : Fault := ⟨.other, "no more children"⟩

/-- The failure of a call for a child that was never started. -/
def noSuchChild : Fault := ⟨.other, "no such child"⟩

/-- Starts a child by the next plan, which is used up even if the start fails. -/
def start (s : ScriptedState) (_child : Nat) (_env : Environment) :
    ScriptedState × Option Fault :=
  match s.coming with
  | [] => (s, some noMoreChildren)
  | plan :: coming =>
    match plan.startFailure with
    | some fault => ({ s with coming }, some fault)
    | none => ({ coming, children := s.children ++ [{ plan }] }, none)

/-- Hands a line to a child. -/
def send (s : ScriptedState) (number : Nat) (_line : String) : ScriptedState × Option Fault :=
  match s.children[number]? with
  | none => (s, some noSuchChild)
  | some child =>
    match child.sendFailure with
    | some fault => (s, some fault)
    | none => ({ s with children := s.children.set number child.take }, none)

/-- Takes the next queued outcome of a child. -/
def poll (s : ScriptedState) (number : Nat) (_timeout : Duration) :
    ScriptedState × PollOutcome :=
  match s.children[number]? with
  | none => (s, .endOfStream)
  | some child =>
    let (child, outcome) := child.poll
    ({ s with children := s.children.set number child }, outcome)

/-- Asks whether a child has ended. -/
def hasExited (s : ScriptedState) (number : Nat) : ScriptedState × Bool :=
  (s, s.children[number]?.all (·.hasExited))

/-- Ends a child. -/
def teardown (s : ScriptedState) (number : Nat) : ScriptedState × Teardown :=
  (s, ⟨s.children[number]?.bind (·.plan.teardownFailure), none⟩)

/-- The host that follows its plans, under a program name. -/
def host (program : String) : Host ScriptedState :=
  ⟨program, start, send, poll, hasExited, teardown, fun s _ => s⟩

end ScriptedState

end LineScript
