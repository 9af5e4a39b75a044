import LineScript.Host.Echo
import LineScript.Proofs.ChildInput

/-!
# What an echoing host keeps of its children

An echoing host remembers every child that it started: the texts that it took, how many more it
takes and whether it was torn down. Over calls that a runner is allowed to make this is what the
events tell, and at most one child is not torn down. Main result: an allowed call keeps the record,
and so do allowed calls in turn, whatever options the children have.
-/

namespace LineScript

/-- What is left of a list with one element replaced. -/
theorem forall_getElem?_set {α : Type} {P : Nat → α → Prop} {list : List α} {place : Nat} {new : α}
    (hothers : ∀ k a, list[k]? = some a → k ≠ place → P k a) (hnew : P place new) :
    ∀ k a, (list.set place new)[k]? = some a → P k a := by
  intro k a h
  rw [List.getElem?_set] at h
  split_ifs at h with heq hlt
  · cases h
    exact heq ▸ hnew
  · exact hothers k a h (Ne.symm heq)

/-- Whether a child is as its texts and its options have it, given whether it lives. -/
structure EchoChild.IsKept (child : EchoChild) (limit : Option Nat) (texts : List String)
    (lives : Prop) : Prop where
  /-- It has taken the texts. -/
  received : child.received = texts
  /-- It takes so many more. -/
  remaining : child.remaining = limit.map (· - texts.length)
  /-- It has taken no more than it may. -/
  within : ∀ n ∈ limit, texts.length ≤ n
  /-- It is torn down unless it lives. -/
  tornDown : child.tornDown = false ↔ lives

namespace EchoChild

variable {options : EchoOptions} {child child' : EchoChild} {limit : Option Nat}
  {texts : List String} {lives lives' : Prop}

/-- A child that takes a line has not ended, takes at least one more, and keeps the line. -/
theorem send_eq_some {line : String} (h : child.send options line = some child') :
    child.hasExited options = false ∧ child.remaining ≠ some 0 ∧
      child' = { child with
        remaining := child.remaining.map (· - 1)
        taken := line :: child.taken
        pending := if options.silent then child.pending else child.pending ++ [line] } := by
  rw [send] at h
  split_ifs at h with hrefuses hsilent <;>
  · rw [Bool.or_eq_true, not_or, Bool.not_eq_true, beq_iff_eq] at hrefuses
    cases h
    simp [hrefuses, hsilent]

/-- A child that takes a line is as before with the line added to its texts. -/
theorem IsKept.send (h : child.IsKept limit texts lives) {line : String}
    (hsend : child.send options line = some child') :
    child'.IsKept limit (texts ++ [line]) lives := by
  obtain ⟨-, htakes, rfl⟩ := send_eq_some hsend
  rw [h.remaining] at htakes
  have hless (n : Nat) (hn : n ∈ limit) : texts.length < n := by
    rw [Option.mem_def.mp hn, Option.map_some] at htakes
    have hle := h.within n hn
    have hne : n - texts.length ≠ 0 := fun heq => htakes (congrArg some heq)
    omega
  refine ⟨?_, ?_, fun n hn => ?_, h.tornDown⟩
  · rw [← h.received]
    exact List.reverse_cons
  · change child.remaining.map (· - 1) = _
    rw [h.remaining, Option.map_map, List.length_append]
    rfl
  · rw [List.length_append]
    exact hless n hn

/-- A poll changes nothing that is remembered of a child. -/
theorem IsKept.poll (h : child.IsKept limit texts lives) :
    (child.poll options).1.IsKept limit texts lives := by
  rw [EchoChild.poll]
  split_ifs
  · exact h
  · cases child.pending with
    | nil => exact h
    | cons line rest => exact ⟨h.received, h.remaining, h.within, h.tornDown⟩

/-- Whether a child lives may be put in another way. -/
theorem IsKept.congr (h : child.IsKept limit texts lives) (hlives : lives ↔ lives') :
    child.IsKept limit texts lives' :=
  ⟨h.received, h.remaining, h.within, h.tornDown.trans hlives⟩

end EchoChild

namespace EchoState

/-- Whether an echoing host is as options, a custody and events have it. -/
structure Tracks (s : EchoState) (options : EchoOptions) (k : Custody) (events : List Event) :
    Prop where
  /-- The options stay. -/
  options_eq : s.options = options
  /-- There is a child for each start. -/
  length_eq : s.children.length = k.started
  /-- Every child has taken the texts that it accepted, and lives if it is in custody. -/
  kept : ∀ number (child : EchoChild), s.children[number]? = some child →
    child.IsKept options.acceptLines (acceptedBy number events) (k.child = some number)
  /-- No child has accepted a text before its start. -/
  unstarted : ∀ number, k.started ≤ number → acceptedBy number events = []
  /-- The child in custody was started. -/
  started : ∀ number, k.child = some number → number < k.started
  /-- All children but the one in custody were torn down, each once. -/
  teardowns_eq : s.teardowns + k.child.toList.length = k.started
  /-- There was at most one child at a time. -/
  mostLive_le : s.mostLive ≤ 1

variable {s : EchoState} {options : EchoOptions} {k : Custody} {events : List Event}

/-- A fresh host has nothing to remember. -/
theorem tracks_fresh (options : EchoOptions) : Tracks { options } options ⟨none, 0⟩ [] :=
  ⟨rfl, rfl, nofun, fun _ _ => rfl, nofun, rfl, Nat.zero_le 1⟩

/-- Without a child in custody no child lives. -/
theorem Tracks.live_eq_zero (h : Tracks s options k events) (hnone : k.child = none) :
    s.live = 0 := by
  rw [live, List.countP_eq_zero]
  intro child hmem
  obtain ⟨number, hchild⟩ := List.mem_iff_getElem?.mp hmem
  have hdown := (h.kept number child hchild).tornDown
  rw [hnone] at hdown
  cases htorn : child.tornDown with
  | true => exact Bool.false_ne_true
  | false => exact nomatch hdown.mp htorn

/-- Without a child in custody every child was torn down once. -/
theorem Tracks.teardowns_eq_length (h : Tracks s options k events) (hnone : k.child = none) :
    s.teardowns = s.children.length := by
  have hsum := h.teardowns_eq
  rw [hnone] at hsum
  exact hsum.trans h.length_eq.symm

/-- The texts of a child after an event that brings it none. -/
theorem acceptedBy_concat {number : Nat} {event : Event} (h : event.accepted? number = none) :
    acceptedBy number (events ++ [event]) = acceptedBy number events := by
  rw [acceptedBy_append]
  simp [acceptedBy, h]

/-- An event that changes no child leaves the record. -/
theorem Tracks.quiet (h : Tracks s options k events) {event : Event}
    (hevent : ∀ number, event.accepted? number = none) :
    Tracks s options k (events ++ [event]) := by
  refine ⟨h.options_eq, h.length_eq, fun number child hchild => ?_, fun number hle => ?_, h.started,
    h.teardowns_eq, h.mostLive_le⟩
  · rw [acceptedBy_concat (hevent number)]
    exact h.kept number child hchild
  · rw [acceptedBy_concat (hevent number)]
    exact h.unstarted number hle

/-- A start adds a child that has taken nothing. -/
theorem Tracks.start {started : Nat} (h : Tracks s options ⟨none, started⟩ events)
    (env : Environment) (hstart : (s.start started env).2 = none) :
    Tracks (s.start started env).1 options ⟨some started, started + 1⟩
      (events ++ [.start started env none]) := by
  have hlive := h.live_eq_zero rfl
  have hmost := h.mostLive_le
  rw [EchoState.start] at hstart ⊢
  split_ifs at hstart ⊢
  refine ⟨h.options_eq, ?_, fun number child hchild => ?_, fun number hle => ?_, ?_, ?_, ?_⟩
  · exact (List.length_append).trans (congrArg (· + 1) h.length_eq)
  · rw [acceptedBy_concat rfl]
    rcases Nat.lt_trichotomy number s.children.length with hlt | rfl | hgt
    · rw [List.getElem?_append_left hlt] at hchild
      refine (h.kept number child hchild).congr ⟨nofun, fun heq => ?_⟩
      rw [h.length_eq] at hlt
      exact absurd (Option.some.inj heq) hlt.ne'
    · rw [List.getElem?_concat_length] at hchild
      cases hchild
      have hnone := h.unstarted s.children.length h.length_eq.ge
      rw [hnone]
      refine ⟨rfl, ?_, fun _ _ => Nat.zero_le _, fun _ => congrArg some h.length_eq.symm,
        fun _ => rfl⟩
      rw [h.options_eq]
      exact Option.map_id.symm ▸ rfl
    · rw [List.getElem?_eq_none (by rw [List.length_append]; exact hgt)] at hchild
      cases hchild
  · rw [acceptedBy_concat rfl]
    exact h.unstarted number (Nat.le_of_succ_le hle)
  · rintro number ⟨⟩
    exact Nat.lt_succ_self _
  · exact congrArg (· + 1) h.teardowns_eq
  · have hnew : (s.children ++ [EchoChild.mk env [] [] s.options.acceptLines 0 false]).countP
        (fun child => !child.tornDown) = s.live + 1 := List.countP_append
    rw [hlive] at hnew
    exact Nat.max_le.mpr ⟨hmost, hnew.le⟩

/-- The child in custody may be replaced by one that has taken what the event brings it. -/
theorem Tracks.replace (h : Tracks s options k events) {number : Nat} {child : EchoChild}
    {polled : List PollOutcome} {event : Event} (hlives : k.child = some number)
    (hothers : ∀ other, other ≠ number → event.accepted? other = none)
    (hkept : child.IsKept options.acceptLines (acceptedBy number (events ++ [event]))
      (k.child = some number)) :
    Tracks { s with children := s.children.set number child, polled } options k
      (events ++ [event]) := by
  refine ⟨h.options_eq, List.length_set.trans h.length_eq, ?_, fun other hle => ?_, h.started,
    h.teardowns_eq, h.mostLive_le⟩
  · refine forall_getElem?_set (fun other kept hchild hne => ?_) hkept
    rw [acceptedBy_concat (hothers other hne)]
    exact h.kept other kept hchild
  · have hne : other ≠ number := by
      have hless := h.started number hlives
      omega
    rw [acceptedBy_concat (hothers other hne)]
    exact h.unstarted other hle

/-- A text for the child in custody is taken and kept, or refused. -/
theorem Tracks.send (h : Tracks s options k events) {number : Nat} (hlives : k.child = some number)
    {text : String} {failure : Option Fault} (hanswer : (s.send number text).2 = failure) :
    Tracks (s.send number text).1 options k (events ++ [.send number text failure]) := by
  rw [EchoState.send] at hanswer ⊢
  cases htaken : s.children[number]?.bind (·.send s.options text) with
  | none =>
    rw [htaken] at hanswer
    cases hanswer
    exact h.quiet fun _ => rfl
  | some child' =>
    rw [htaken] at hanswer
    cases hanswer
    obtain ⟨child, hchild, hsend⟩ := Option.bind_eq_some_iff.mp htaken
    refine h.replace hlives (fun other hne => if_neg hne.symm) ?_
    have hmore : acceptedBy number (events ++ [.send number text none]) =
        acceptedBy number events ++ [text] := by
      rw [acceptedBy_append]
      simp [acceptedBy, Event.accepted?]
    rw [hmore]
    exact (h.kept number child hchild).send hsend

/-- A poll of the child in custody leaves the record. -/
theorem Tracks.poll (h : Tracks s options k events) {number : Nat} (hlives : k.child = some number)
    (timeout : Duration) (outcome : PollOutcome) :
    Tracks (s.poll number timeout).1 options k (events ++ [.poll number timeout outcome]) := by
  rw [EchoState.poll]
  cases hchild : s.children[number]? with
  | none => exact h.quiet fun _ => rfl
  | some child =>
    refine h.replace hlives (fun _ _ => rfl) ?_
    rw [acceptedBy_concat rfl]
    exact (h.kept number child hchild).poll

/-- The end of the child in custody is counted once. -/
theorem Tracks.teardown {number started : Nat} (h : Tracks s options ⟨some number, started⟩ events)
    (answer : Teardown) :
    Tracks (s.teardown number).1 options ⟨none, started⟩ (events ++ [.teardown number answer]) := by
  have hlt : number < s.children.length := (h.started number rfl).trans_eq h.length_eq.symm
  have hchild : s.children[number]? = some s.children[number] := List.getElem?_eq_getElem hlt
  have hkept := h.kept number _ hchild
  have hliving := hkept.tornDown.mpr rfl
  rw [EchoState.teardown, hchild]
  dsimp only
  rw [if_neg (hliving ▸ Bool.false_ne_true)]
  refine ⟨h.options_eq, List.length_set.trans h.length_eq, ?_, fun other hle => ?_, nofun, ?_,
    h.mostLive_le⟩
  · refine forall_getElem?_set (fun other kept hother hne => ?_) ?_
    · rw [acceptedBy_concat rfl]
      exact (h.kept other kept hother).congr
        ⟨fun heq => absurd (Option.some.inj heq) hne.symm, nofun⟩
    · rw [acceptedBy_concat rfl]
      exact ⟨hkept.received, hkept.remaining, hkept.within, nofun, nofun⟩
  · rw [acceptedBy_concat rfl]
    exact h.unstarted other hle
  · exact h.teardowns_eq

end EchoState

/-- A runner whose children echo. -/
def Runner.overEcho {σ : Type} (sink : Sink σ) (pollTimeout : Duration) (patience : Nat) :
    Runner EchoState σ := ⟨EchoState.host, sink, pollTimeout, patience⟩

namespace EchoState

variable {σ : Type} {sink : Sink σ} {pollTimeout : Duration} {patience : Nat}
  {p q : Parties EchoState σ} {options : EchoOptions} {k k' : Custody} {events more : List Event}

/-- A call that the custody allows keeps the record. -/
theorem Tracks.step {event : Event} (h : Tracks p.host options k events)
    (hallows : k.Allows event k')
    (hanswer : (Runner.overEcho sink pollTimeout patience).Answers p event) :
    Tracks ((Runner.overEcho sink pollTimeout patience).after p event).host options k'
      (events ++ [event]) := by
  cases hallows with
  | started => exact h.start _ hanswer
  | @refused started env fault =>
    have hsame : (p.host.start started env).1 = p.host := by
      have hfails : (p.host.start started env).2 = some fault := hanswer
      rw [EchoState.start] at hfails ⊢
      split_ifs at hfails ⊢
      rfl
    have hquiet : Tracks p.host options _ (events ++ [.start started env (some fault)]) :=
      h.quiet fun _ => rfl
    rw [← hsame] at hquiet
    exact hquiet
  | used hused =>
    cases event with
    | send number text failure => exact h.send hused.symm hanswer
    | poll number timeout outcome => exact h.poll hused.symm timeout outcome
    | hasExited => exact h.quiet fun _ => rfl
    | _ => cases hused
  | ended => exact h.teardown _
  | other hother =>
    cases event with
    | write => exact h.quiet fun _ => rfl
    | flush => exact h.quiet fun _ => rfl
    | sleep => exact h.quiet fun _ => rfl
    | warn => exact h.quiet fun _ => rfl
    | _ => cases hother

/-- Calls in turn that the custody allows keep the record. -/
theorem Tracks.append (h : Tracks p.host options k events) (hkeeps : Custody.Keeps k more k')
    (htalk : (Runner.overEcho sink pollTimeout patience).Conversation p more q) :
    Tracks q.host options k' (events ++ more) := by
  induction hkeeps generalizing p events with
  | nil =>
    cases htalk
    rwa [List.append_nil]
  | cons hallows _ ih =>
    rw [List.append_cons]
    exact ih (h.step hallows htalk.1) htalk.2

/-- From a fresh host on the record is what the events tell. -/
theorem tracks_of_fresh {state : σ} (hkeeps : Custody.Keeps ⟨none, 0⟩ events k)
    (htalk : (Runner.overEcho sink pollTimeout patience).Conversation ⟨{ options }, state⟩ events
      q) :
    Tracks q.host options k events :=
  (tracks_fresh options).append hkeeps htalk

end EchoState

end LineScript
