import Mathlib.Logic.Relation
import LineScript.Host.Processes
import LineScript.Proofs.Cutting
import LineScript.Proofs.Queues

/-!
# Output on its way

A child writes its output into a pipe, a reader fetches it from there, cuts it into lines and puts
them into a queue, and a supervisor polls the queue. The three of them take their steps in any
order. What was returned, what is queued, what the reader holds and the lines of what is still to
come are always the lines of the stream, in order. Main result: whatever the order, the lines that
polls have returned are the first lines of the stream, the end is told only after all of them and
before no other line, and the queue never holds more than 64 lines. What the readers of processes
do on a machine are steps of this kind.
-/

namespace LineScript

/-- Where an element stands in a list with one more element at its end. -/
theorem concat_eq_append_cons {α : Type} {list before after : List α} {last element : α}
    (h : list ++ [last] = before ++ element :: after) :
    after = [] ∧ last = element ∧ list = before ∨
      ∃ rest, after = rest ++ [last] ∧ list = before ++ element :: rest := by
  rcases after.eq_nil_or_concat with rfl | ⟨rest, final, rfl⟩
  · obtain ⟨hlist, hlast⟩ := List.append_inj' h rfl
    exact .inl ⟨rfl, List.head_eq_of_cons_eq hlast, hlist⟩
  · rw [List.concat_eq_append, ← List.cons_append, ← List.append_assoc] at h
    obtain ⟨hlist, hlast⟩ := List.append_inj' h rfl
    rw [List.head_eq_of_cons_eq hlast]
    exact .inr ⟨rest, List.concat_eq_append, hlist⟩

namespace Reader

/-- Text lines are lines, decoded. -/
theorem readTexts_eq_map (fuel : Nat) (r : Reader) (lineBuffer : Bytes) :
    readTexts fuel r lineBuffer = (readLines fuel r).1.map Utf8.decodeStringLossy := by
  induction fuel generalizing r lineBuffer with
  | zero => rfl
  | succ fuel ih =>
    rw [readTexts, readText, readLines]
    rcases r.readLine with ⟨_ | _ | line, next⟩
    · rfl
    · rfl
    · exact congrArg (_ :: ·) (ih next _)

/-- The text lines of a source are those that its bytes deliver. -/
theorem texts_eq_map (source : Source) (capacity : Nat) (lineBuffer : Bytes) :
    (ofSource capacity source).texts lineBuffer =
      (deliveredLines source.bytes source.failure).map ChildOutput.textOf := by
  rw [texts, readTexts_eq_map]
  change (ofSource capacity source).lines.1.map _ = _
  rw [lines_eq, remaining_ofSource, List.map_map]
  rfl

end Reader

namespace ChildOutput

/-- The line that the reader holds. -/
def held (o : ChildOutput) : List String :=
  match o.reader with
  | .holding line => [line]
  | _ => []

/-- The lines that are on their way: those in the queue, the one that the reader holds and those of
the bytes that are not yet cut, given the bytes to come and what happens after them. -/
def ahead (o : ChildOutput) (coming : Bytes) (failure : Option Fault) : List String :=
  o.queue ++ (o.held ++ (deliveredLines (o.unread ++ coming) failure).map textOf)

/-- A reader that has to fetch is looking for the end of a line that it has not fetched. -/
theorem needsFetch_iff {o : ChildOutput} :
    o.needsFetch = true ↔ o.reader = .reading ∧ splitAfterNewline? o.unread = none := by
  rw [needsFetch, Bool.and_eq_true, decide_eq_true_iff, Option.isNone_iff_eq_none]

/-- The reader that fetches bytes has them before it instead of in the pipe. -/
theorem ahead_feed_bytes {o : ChildOutput} (h : o.reader = .reading) (part rest : Bytes)
    (failure : Option Fault) :
    (o.feed (.bytes part)).ahead rest failure = o.ahead (part ++ rest) failure := by
  obtain ⟨unread, reader, queue⟩ := o
  obtain rfl : reader = .reading := h
  have hbytes : unread ++ part ++ rest = unread ++ (part ++ rest) := List.append_assoc _ _ _
  exact congrArg (fun bytes => queue ++ ([] ++ (deliveredLines bytes failure).map textOf)) hbytes

/-- At the end of the stream an unfinished line is a line, and before a failure it is none. -/
theorem ahead_feed_stop {o : ChildOutput} (h : o.needsFetch = true) (failure : Option Fault) :
    (o.feed (if failure.isSome then .failed else .finished)).ahead [] failure =
      o.ahead [] failure := by
  obtain ⟨unread, reader, queue⟩ := o
  obtain ⟨rfl, hsplit⟩ : reader = .reading ∧ splitAfterNewline? unread = none :=
    needsFetch_iff.mp h
  have hcoming : deliveredLines (unread ++ []) failure =
      if failure.isSome || unread.isEmpty then [] else [unread] := by
    rw [List.append_nil, deliveredLines, splitLines_of_not_mem (splitAfterNewline?_eq_none hsplit),
      List.nil_append]
  rw [ahead, ahead, hcoming]
  cases failure with
  | some fault => rfl
  | none => cases unread <;> rfl

/-- Fetching leaves the queue. -/
theorem queue_feed (o : ChildOutput) (fetch : Fetch) : (o.feed fetch).queue = o.queue := by
  obtain ⟨unread, reader, queue⟩ := o
  cases reader with
  | reading =>
    cases fetch with
    | finished => cases unread <;> rfl
    | _ => rfl
  | _ => rfl

/-- Fetching bytes leaves the reader looking for the end of a line. -/
theorem reader_feed_bytes {o : ChildOutput} (h : o.reader = .reading) (part : Bytes) :
    (o.feed (.bytes part)).reader = .reading := by
  obtain ⟨unread, reader, queue⟩ := o
  obtain rfl : reader = .reading := h
  rfl

/-- A reader that is stopped has no bytes left. -/
theorem unread_feed_stop {o : ChildOutput} (h : o.reader = .reading) (failed : Bool) :
    (o.feed (if failed then .failed else .finished)).unread = [] := by
  obtain ⟨unread, reader, queue⟩ := o
  obtain rfl : reader = .reading := h
  cases failed <;> cases unread <;> rfl

/-- Taking a line out of the bytes leaves the queue, and does not end the reader. -/
theorem cut_of_reading {o : ChildOutput} (h : o.reader = .reading) :
    o.cut.queue = o.queue ∧ o.cut.reader ≠ .ended := by
  obtain ⟨unread, reader, queue⟩ := o
  obtain rfl : reader = .reading := h
  rw [cut]
  cases splitAfterNewline? unread <;> exact ⟨rfl, nofun⟩

/-- The reader that takes a line out of its bytes holds it. -/
theorem ahead_cut (o : ChildOutput) (coming : Bytes) (failure : Option Fault) :
    o.cut.ahead coming failure = o.ahead coming failure := by
  obtain ⟨unread, reader, queue⟩ := o
  cases reader with
  | holding line => rfl
  | ended => rfl
  | reading =>
    cases hsplit : splitAfterNewline? unread with
    | none =>
      have hcut : cut ⟨unread, .reading, queue⟩ = ⟨unread, .reading, queue⟩ := by
        rw [cut, hsplit]
      rw [hcut]
    | some pieces =>
      obtain ⟨line, rest⟩ := pieces
      obtain ⟨hline, rfl⟩ := splitAfterNewline?_eq_some hsplit
      have hcut : cut ⟨line ++ rest, .reading, queue⟩ = ⟨rest, .holding (textOf line), queue⟩ := by
        rw [cut, hsplit]
      rw [hcut, ahead, ahead, List.append_assoc, deliveredLines_append hline]
      rfl

/-- The reader that puts its line into the queue puts it at the end. -/
theorem ahead_push (o : ChildOutput) (coming : Bytes) (failure : Option Fault) :
    o.push.ahead coming failure = o.ahead coming failure := by
  obtain ⟨unread, reader, queue⟩ := o
  cases reader with
  | reading => rfl
  | ended => rfl
  | holding line =>
    rw [push]
    split_ifs
    · exact List.append_assoc queue [line] _
    · rfl

/-- Putting a line into the queue never makes it longer than it may be, and does not end the
reader. -/
theorem push_of_holding {o : ChildOutput} {line : String} (h : o.reader = .holding line)
    (hlimited : o.queue.length ≤ queueLimit) :
    o.push.queue.length ≤ queueLimit ∧ o.push.reader ≠ .ended := by
  obtain ⟨unread, reader, queue⟩ := o
  obtain rfl : reader = .holding line := h
  rw [push]
  dsimp only
  split_ifs with hroom
  · exact ⟨List.length_append.trans_le hroom, nofun⟩
  · exact ⟨hlimited, nofun⟩

/-- Polling takes the first line of the queue, or finds that the reader has ended and the queue is
empty. -/
theorem receive_eq_some {o o' : ChildOutput} {outcome : PollOutcome}
    (h : o.receive = some (o', outcome)) :
    (∃ line queue, o.queue = line :: queue ∧ outcome = .line line ∧ o' = { o with queue }) ∨
      o.reader = .ended ∧ o.queue = [] ∧ outcome = .endOfStream ∧ o' = o := by
  obtain ⟨unread, reader, queue⟩ := o
  cases queue with
  | cons line queue =>
    cases h
    exact .inl ⟨line, queue, rfl, rfl, rfl⟩
  | nil =>
    cases reader with
    | reading => cases h
    | holding line => cases h
    | ended =>
      cases h
      exact .inr ⟨rfl, rfl, rfl, rfl⟩

end ChildOutput

namespace Machine

/-- Bytes that are taken come before those that are left, and some are taken if there are any. -/
theorem takeBytes_append (limit : Nat) (pieces : List Bytes) :
    (takeBytes limit pieces).1 ++ (takeBytes limit pieces).2.flatten = pieces.flatten ∧
      (0 < limit → pieces.flatten ≠ [] → (takeBytes limit pieces).1 ≠ []) := by
  induction pieces generalizing limit with
  | nil => exact ⟨rfl, fun _ h => absurd rfl h⟩
  | cons piece rest ih =>
    rw [takeBytes]
    split_ifs with hless
    · refine ⟨?_, fun hpositive _ hnone => ?_⟩
      · rw [List.flatten_cons, ← List.append_assoc, List.take_append_drop, List.flatten_cons]
      · rw [List.take_eq_nil_iff] at hnone
        rcases hnone with rfl | rfl
        · exact absurd hpositive (Nat.lt_irrefl 0)
        · exact absurd hless (Nat.not_lt_zero limit)
    · obtain ⟨hall, hsome⟩ := ih (limit - piece.length)
      refine ⟨?_, fun hpositive hne hnone => ?_⟩
      · rw [List.append_assoc, hall, List.flatten_cons]
      · obtain ⟨rfl, hrest⟩ := List.append_eq_nil_iff.mp hnone
        exact hsome hpositive hne hrest

end Machine

/-- A child's output between the child and the polls of its supervisor. -/
structure Pipeline where
  /-- The pieces that the child is still going to write. -/
  unwritten : List Bytes
  /-- What happens after all of them in place of the end. -/
  failure : Option Fault
  /-- The bytes that were written and not yet fetched. -/
  pipe : Bytes := []
  /-- The reader and the queue. -/
  output : ChildOutput := {}
  /-- Whether the pipes are open. -/
  pipesOpen : Bool := true
  /-- What polls have returned, in order. -/
  returned : List PollOutcome := []

namespace Pipeline

/-- Output of which nothing is written yet. -/
def ofSource (source : Source) : Pipeline :=
  { unwritten := source.chunks, failure := source.failure }

/-- The lines among outcomes of polls. -/
def linesOf (outcomes : List PollOutcome) : List String := outcomes.filterMap PollOutcome.line?

/-- The steps of the child, of the reader and of the supervisor. The reader works as long as the
pipes are open, and a poll may run into its timeout at any point. -/
inductive Step : Pipeline → Pipeline → Prop
  /-- The child writes its next piece. -/
  | write {p piece rest} (h : p.unwritten = piece :: rest) :
      Step p { p with unwritten := rest, pipe := p.pipe ++ piece }
  /-- The reader fetches some of the bytes in the pipe. -/
  | fetch {p part rest} (hopen : p.pipesOpen = true) (hneeds : p.output.needsFetch = true)
      (hpipe : p.pipe = part ++ rest) (hpart : part ≠ []) :
      Step p { p with pipe := rest, output := p.output.feed (.bytes part) }
  /-- The reader comes to the end of the stream, or cannot read on. -/
  | stop {p} (hopen : p.pipesOpen = true) (hneeds : p.output.needsFetch = true)
      (hpipe : p.pipe = []) (hunwritten : p.unwritten = []) :
      Step p { p with
        output := p.output.feed (if p.failure.isSome then .failed else .finished) }
  /-- The reader takes a line out of what it has fetched. -/
  | cut {p} (hopen : p.pipesOpen = true) (hreading : p.output.reader = .reading)
      (hneeds : p.output.needsFetch = false) : Step p { p with output := p.output.cut }
  /-- The reader puts its line into the queue, if there is room. -/
  | push {p line} (hopen : p.pipesOpen = true) (hholding : p.output.reader = .holding line)
      (hroom : p.output.queue.length < ChildOutput.queueLimit) :
      Step p { p with output := p.output.push }
  /-- A poll returns what the queue has to tell. -/
  | receive {p output outcome} (hopen : p.pipesOpen = true)
      (h : p.output.receive = some (output, outcome)) :
      Step p { p with output, returned := p.returned ++ [outcome] }
  /-- A poll runs into its timeout. -/
  | expire {p} (hopen : p.pipesOpen = true) :
      Step p { p with returned := p.returned ++ [.timeout] }
  /-- The child is torn down: its pipes are closed and the reader is stopped. -/
  | teardown {p} : Step p { p with pipesOpen := false }
  /-- A poll after that returns the end. -/
  | closed {p} (hclosed : p.pipesOpen = false) :
      Step p { p with returned := p.returned ++ [.endOfStream] }

/-- The bytes that are not yet fetched. -/
def coming (p : Pipeline) : Bytes := p.pipe ++ p.unwritten.flatten

/-- Whether output is as the lines of its stream have it. -/
structure Carries (p : Pipeline) (lines : List String) : Prop where
  /-- What was returned and what is on its way are the lines. -/
  inOrder : linesOf p.returned ++ p.output.ahead p.coming p.failure = lines
  /-- The queue holds no more than it may. -/
  limited : p.output.queue.length ≤ ChildOutput.queueLimit
  /-- A reader that has ended leaves nothing behind. -/
  ended : p.output.reader = .ended → p.output.unread = [] ∧ p.pipe = [] ∧ p.unwritten = []
  /-- Once the end was told there is nothing more to tell. -/
  told : .endOfStream ∈ p.returned → p.pipesOpen = false ∨
    p.output.reader = .ended ∧ p.output.queue = []
  /-- The end is told after all lines and before none, as long as the pipes are open. -/
  last : ∀ before after, p.returned = before ++ .endOfStream :: after →
    linesOf after = [] ∧ (p.pipesOpen = true → linesOf before = lines)

variable {p q : Pipeline} {lines : List String}

/-- At first all lines are still to come. -/
theorem carries_ofSource (source : Source) :
    (ofSource source).Carries
      ((deliveredLines source.bytes source.failure).map ChildOutput.textOf) :=
  ⟨rfl, Nat.zero_le _, nofun, nofun, fun before after h => by cases before <;> cases h⟩

/-- A step of the child or of the reader keeps the lines in order. -/
theorem Carries.advance (h : p.Carries lines) (hreturned : q.returned = p.returned)
    (hopen : q.pipesOpen = p.pipesOpen)
    (horder : q.output.ahead q.coming q.failure = p.output.ahead p.coming p.failure)
    (hlimited : q.output.queue.length ≤ ChildOutput.queueLimit)
    (hended : q.output.reader = .ended → q.output.unread = [] ∧ q.pipe = [] ∧ q.unwritten = [])
    (hstays : p.output.reader = .ended → q.output = p.output) : q.Carries lines := by
  refine ⟨?_, hlimited, hended, fun hmem => ?_, fun before after heq => ?_⟩
  · rw [hreturned, horder, h.inOrder]
  · rw [hopen]
    refine (h.told (hreturned ▸ hmem)).imp_right fun htold => ?_
    rwa [hstays htold.1]
  · rw [hopen]
    exact h.last before after (hreturned ▸ heq)

/-- The lines of outcomes and of one outcome more. -/
theorem linesOf_concat (outcomes : List PollOutcome) (outcome : PollOutcome) :
    linesOf (outcomes ++ [outcome]) = linesOf outcomes ++ outcome.line?.toList := by
  rw [linesOf, List.filterMap_append, linesOf]
  cases h : outcome.line? <;> simp [h]

/-- Where the reader has ended and the queue is empty, everything was returned. -/
theorem Carries.linesOf_eq (h : p.Carries lines) (hended : p.output.reader = .ended)
    (hqueue : p.output.queue = []) : linesOf p.returned = lines := by
  obtain ⟨hunread, hpipe, hunwritten⟩ := h.ended hended
  have hnothing : p.output.ahead p.coming p.failure = [] := by
    rw [ChildOutput.ahead, ChildOutput.held, coming, hended, hqueue, hunread, hpipe, hunwritten]
    cases p.failure <;> rfl
  rw [← h.inOrder, hnothing, List.append_nil]

/-- A poll that returns an outcome keeps the lines in order, if the outcome has the line that it
takes out of the queue, and if it tells the end only where there is nothing more to tell. -/
theorem Carries.returns (h : p.Carries lines) {outcome : PollOutcome} {queue : List String}
    (hqueue : p.output.queue = outcome.line?.toList ++ queue)
    (hend : outcome = .endOfStream → p.pipesOpen = false ∨
      p.output.reader = .ended ∧ p.output.queue = [])
    (hquiet : p.pipesOpen = false → outcome.line? = none) :
    Carries { p with
      output := { p.output with queue }
      returned := p.returned ++ [outcome] } lines := by
  refine ⟨?_, ?_, h.ended, fun hmem => ?_, fun before after heq => ?_⟩
  · have horder := h.inOrder
    rw [ChildOutput.ahead, hqueue, List.append_assoc, ← List.append_assoc, ← linesOf_concat]
      at horder
    exact horder
  · have hlimited := h.limited
    rw [hqueue, List.length_append] at hlimited
    exact (Nat.le_add_left _ _).trans hlimited
  · have hempty (hnone : p.output.queue = []) : queue = [] :=
      (List.append_eq_nil_iff.mp (hqueue.symm.trans hnone)).2
    rcases List.mem_append.mp hmem with hbefore | hlast
    · exact (h.told hbefore).imp_right fun htold => ⟨htold.1, hempty htold.2⟩
    · exact (hend (List.mem_singleton.mp hlast).symm).imp_right fun htold =>
        ⟨htold.1, hempty htold.2⟩
  · rcases concat_eq_append_cons heq with ⟨rfl, heos, rfl⟩ | ⟨rest, rfl, hreturned⟩
    · refine ⟨rfl, fun hopen => ?_⟩
      rcases hend heos with hclosed | ⟨hended, hnone⟩
      · exact absurd (hopen.symm.trans hclosed) Bool.true_eq_false.mp
      · exact h.linesOf_eq hended hnone
    · obtain ⟨hrest, hbefore⟩ := h.last before rest hreturned
      have hmem : .endOfStream ∈ p.returned :=
        hreturned ▸ List.mem_append_right _ List.mem_cons_self
      refine ⟨?_, hbefore⟩
      rw [linesOf_concat, hrest, List.nil_append]
      rcases h.told hmem with hclosed | ⟨-, hnone⟩
      · rw [hquiet hclosed]
        rfl
      · exact (List.append_eq_nil_iff.mp (hqueue.symm.trans hnone)).1

/-- Every step keeps the lines in order. -/
theorem Carries.step (h : p.Carries lines) (hstep : Step p q) : q.Carries lines := by
  cases hstep with
  | @write piece rest hunwritten =>
    have hcoming : p.coming = p.pipe ++ piece ++ rest.flatten := by
      rw [coming, hunwritten, List.flatten_cons, List.append_assoc]
    refine h.advance rfl rfl ?_ h.limited (fun hended => ?_) fun _ => rfl
    · rw [hcoming]
      rfl
    · have hnothing := (h.ended hended).2.2
      rw [hunwritten] at hnothing
      cases hnothing
  | @fetch part rest hopen hneeds hpipe hpart =>
    obtain ⟨hreading, -⟩ := ChildOutput.needsFetch_iff.mp hneeds
    have hcoming : p.coming = part ++ (rest ++ p.unwritten.flatten) := by
      rw [coming, hpipe, List.append_assoc]
    refine h.advance rfl rfl ?_ ?_ (fun hended => ?_) (fun hended => ?_)
    · rw [hcoming]
      exact ChildOutput.ahead_feed_bytes hreading _ _ _
    · exact (congrArg List.length (p.output.queue_feed _)).trans_le h.limited
    · cases (ChildOutput.reader_feed_bytes hreading part).symm.trans hended
    · cases hreading.symm.trans hended
  | stop hopen hneeds hpipe hunwritten =>
    obtain ⟨hreading, -⟩ := ChildOutput.needsFetch_iff.mp hneeds
    have hcoming : p.coming = [] := by
      rw [coming, hpipe, hunwritten, List.flatten_nil, List.nil_append]
    refine h.advance rfl rfl ?_ ?_ (fun _ => ?_) (fun hended => ?_)
    · exact (congrArg (ChildOutput.ahead _ · p.failure) hcoming).trans
        ((ChildOutput.ahead_feed_stop hneeds p.failure).trans (hcoming ▸ rfl))
    · exact (congrArg List.length (p.output.queue_feed _)).trans_le h.limited
    · exact ⟨ChildOutput.unread_feed_stop hreading _, hpipe, hunwritten⟩
    · cases hreading.symm.trans hended
  | cut hopen hreading hneeds =>
    obtain ⟨hqueue, hends⟩ := ChildOutput.cut_of_reading hreading
    refine h.advance rfl rfl (ChildOutput.ahead_cut _ _ _) ?_ (fun hended => absurd hended hends)
      (fun hended => ?_)
    · exact (congrArg List.length hqueue).trans_le h.limited
    · cases hreading.symm.trans hended
  | push hopen hholding hroom =>
    obtain ⟨hlimited, hends⟩ := ChildOutput.push_of_holding hholding h.limited
    refine h.advance rfl rfl (ChildOutput.ahead_push _ _ _) hlimited
      (fun hended => absurd hended hends) (fun hended => ?_)
    cases hholding.symm.trans hended
  | @receive output outcome hopen hreceive =>
    rcases ChildOutput.receive_eq_some hreceive with
      ⟨line, queue, hqueue, rfl, rfl⟩ | ⟨hended, hqueue, rfl, rfl⟩
    · exact h.returns hqueue nofun fun hclosed => absurd (hopen.symm.trans hclosed) nofun
    · exact h.returns rfl (fun _ => .inr ⟨hended, hqueue⟩) fun _ => rfl
  | expire hopen => exact h.returns rfl nofun fun _ => rfl
  | teardown =>
    refine ⟨h.inOrder, h.limited, h.ended, fun _ => .inl rfl, fun before after heq => ?_⟩
    exact ⟨(h.last before after heq).1, nofun⟩
  | closed hclosed => exact h.returns rfl (fun _ => .inl hclosed) fun _ => rfl

/-- Steps in turn keep the lines in order. -/
theorem Carries.steps (h : p.Carries lines) (hsteps : Relation.ReflTransGen Step p q) :
    q.Carries lines := by
  induction hsteps with
  | refl => exact h
  | tail _ hstep ih => exact ih.step hstep

/-- Whether a machine has a child's output in a pipe: the bytes of the pipe are those that were
written and not yet fetched, and the child has written everything once no writer is open. -/
structure OnMachine (p : Pipeline) (m : Machine) (number : Nat) : Prop where
  /-- The pipe has the bytes. -/
  content : ∃ content, m.pipes[number]? = some content ∧
    content.size = content.pieces.flatten.length ∧ content.pieces.flatten = p.pipe
  /-- Without a writer nothing more is written. -/
  written : m.isOpen (.writer number) = false → p.unwritten = []
  /-- Reading from a pipe does not fail. -/
  failure_eq : p.failure = none

/-- What the reader of a process does is a step of its output. -/
theorem OnMachine.stepReader {m m' : Machine} {number : Nat} {output : ChildOutput}
    (h : p.OnMachine m number) (hopen : p.pipesOpen = true)
    (hstep : ProcessState.stepReader m number p.output = some (m', output)) :
    ∃ pipe, Step p { p with pipe, output } ∧ OnMachine { p with pipe, output } m' number := by
  obtain ⟨⟨content, hcontent, hsize, hbytes⟩, hwritten, hfailure⟩ := h
  rw [ProcessState.stepReader] at hstep
  cases hreader : p.output.reader with
  | ended =>
    rw [hreader] at hstep
    cases hstep
  | holding line =>
    rw [hreader] at hstep
    dsimp only at hstep
    split_ifs at hstep with hroom
    cases hstep
    exact ⟨p.pipe, .push hopen hreader hroom, ⟨content, hcontent, hsize, hbytes⟩, hwritten,
      hfailure⟩
  | reading =>
    rw [hreader] at hstep
    dsimp only at hstep
    split_ifs at hstep with hneeds
    · rw [Machine.read, hcontent] at hstep
      dsimp only at hstep
      split_ifs at hstep with hzero hwriter
      · rw [Option.map_none] at hstep
        cases hstep
      · -- No byte is left and no writer is open, so that the stream is at its end.
        rw [Option.map_some] at hstep
        cases hstep
        have hempty : p.pipe = [] := by
          rw [← hbytes]
          exact List.eq_nil_of_length_eq_zero (hsize.symm.trans hzero)
        have hstop := Step.stop hopen hneeds hempty (hwritten (Bool.eq_false_iff.mpr hwriter))
        have hfetch : (if p.failure.isSome then .failed else .finished) = Fetch.finished := by
          rw [hfailure]
          rfl
        rw [hfetch] at hstop
        exact ⟨p.pipe, hstop, ⟨content, hcontent, hsize, hbytes⟩, hwritten, hfailure⟩
      · rw [Option.map_some] at hstep
        obtain ⟨hall, hsome⟩ := Machine.takeBytes_append ProcessState.bufferSize content.pieces
        have hpart := hsome (by decide) fun hnone => hzero (by rw [hsize, hnone]; rfl)
        rw [Machine.Pipe.read] at hstep
        rcases htaken : Machine.takeBytes ProcessState.bufferSize content.pieces with ⟨part, left⟩
        rw [htaken] at hstep hall hpart
        dsimp only at hstep hall hpart
        have hpipe : p.pipe = part ++ left.flatten := hbytes.symm.trans hall.symm
        have hlt : number < m.pipes.length := (List.getElem?_eq_some_iff.mp hcontent).1
        have hleft : content.size - part.length = left.flatten.length := by
          rw [hsize, ← hall, List.length_append, Nat.add_sub_cancel_left]
        have hfetched := Step.fetch hopen hneeds hpipe hpart
        obtain ⟨byte, others, rfl⟩ := List.exists_cons_of_ne_nil hpart
        cases hstep
        exact ⟨left.flatten, hfetched, ⟨_, List.getElem?_set_self hlt, hleft, rfl⟩, hwritten,
          hfailure⟩
    · cases hstep
      exact ⟨p.pipe, .cut hopen hreader (Bool.eq_false_iff.mpr hneeds),
        ⟨content, hcontent, hsize, hbytes⟩, hwritten, hfailure⟩

/-- What the reader of a process does in a round are steps of its output. -/
theorem OnMachine.runReader {steps : Nat} {m m' : Machine} {number : Nat} {output : ChildOutput}
    {moved moved' : Bool} (h : p.OnMachine m number) (hopen : p.pipesOpen = true)
    (hrun : ProcessState.runReader number steps m p.output moved = (m', output, moved')) :
    ∃ pipe, Relation.ReflTransGen Step p { p with pipe, output } ∧
      OnMachine { p with pipe, output } m' number := by
  induction steps generalizing p m moved with
  | zero =>
    cases hrun
    exact ⟨p.pipe, .refl, h⟩
  | succ steps ih =>
    rw [ProcessState.runReader] at hrun
    cases hstep : ProcessState.stepReader m number p.output with
    | none =>
      rw [hstep] at hrun
      cases hrun
      exact ⟨p.pipe, .refl, h⟩
    | some next =>
      obtain ⟨m₁, output₁⟩ := next
      rw [hstep] at hrun
      obtain ⟨pipe₁, hfirst, hon⟩ := h.stepReader hopen hstep
      obtain ⟨pipe, hrest, hlast⟩ := ih hon hopen hrun
      exact ⟨pipe, .head hfirst hrest, hlast⟩

/-- Let the output of a child come to its supervisor by steps in any order, and let the stream be
read by itself as text line by line. The lines that polls have returned are the first ones of those
lines. Where a poll has told the end no later poll returns a line, and as long as the pipes are open
the polls before have returned all lines. The queue never holds more than 64 lines. -/
theorem keeps_every_line (source : Source) (capacity : Nat) (lineBuffer : Bytes) {p : Pipeline}
    (h : Relation.ReflTransGen Step (ofSource source) p) :
    linesOf p.returned <+: (Reader.ofSource capacity source).texts lineBuffer ∧
      (∀ before after, p.returned = before ++ .endOfStream :: after →
        linesOf after = [] ∧ (p.pipesOpen = true →
          linesOf before = (Reader.ofSource capacity source).texts lineBuffer)) ∧
      p.output.queue.length ≤ 64 := by
  have hcarries := (carries_ofSource source).steps h
  rw [← Reader.texts_eq_map source capacity lineBuffer] at hcarries
  exact ⟨⟨_, hcarries.inOrder⟩, hcarries.last, hcarries.limited⟩

/-- A child that writes two lines in two pieces, the second line without a newline: two polls run
into their timeouts on the way, and the end is told after both lines. -/
theorem keeps_every_line_of_two_pieces :
    ∃ p, Relation.ReflTransGen Step (ofSource ⟨[[0x61], [0x0A, 0x62]], none⟩) p ∧
      p.returned = [.timeout, .line "a", .line "b", .timeout, .endOfStream] ∧
      (Reader.ofSource 1 ⟨[[0x61], [0x0A, 0x62]], none⟩).texts [] = ["a", "b"] ∧
      p.output.queue.length ≤ 64 := by
  have hfirst : ChildOutput.textOf [0x61, 0x0A] = "a" := by decide +kernel
  have hsecond : ChildOutput.textOf [0x62] = "b" := by decide +kernel
  obtain ⟨p, hreached, hopen, hreturned⟩ :
      ∃ p, Relation.ReflTransGen Step (ofSource ⟨[[0x61], [0x0A, 0x62]], none⟩) p ∧
        p.pipesOpen = true ∧ p.returned = [.timeout, .line (ChildOutput.textOf [0x61, 0x0A]),
          .line (ChildOutput.textOf [0x62]), .timeout, .endOfStream] := by
    refine ⟨_, .head (.write rfl) <| .head (.expire rfl) <|
      .head (.fetch rfl rfl (show _ = [0x61] ++ [] from rfl) nofun) <|
      .head (.write rfl) <| .head (.fetch rfl rfl (show _ = [0x0A, 0x62] ++ [] from rfl) nofun) <|
      .head (.cut rfl rfl rfl) <| .head (.push rfl rfl (by decide)) <| .head (.receive rfl rfl) <|
      .head (.stop rfl rfl rfl rfl) <| .head (.push rfl rfl (by decide)) <|
      .head (.receive rfl rfl) <| .head (.expire rfl) <| .head (.stop rfl rfl rfl rfl) <|
      .head (.receive rfl rfl) .refl, rfl, rfl⟩
  rw [hfirst, hsecond] at hreturned
  obtain ⟨-, hend, hlimited⟩ := keeps_every_line _ 1 [] hreached
  have hall := (hend [.timeout, .line "a", .line "b", .timeout] [] hreturned).2 hopen
  exact ⟨p, hreached, hreturned, hall.symm, hlimited⟩

end Pipeline

end LineScript
