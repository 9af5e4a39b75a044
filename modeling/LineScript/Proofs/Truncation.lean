import LineScript.DryRun
import LineScript.Proofs.Failure

/-!
# A sink that is full

A sink that takes only so many bytes makes a run stop where the next line does not
fit, and changes nothing until then. Every part of a run is compared with itself on
a sink without limit: either all that it writes fits, and it does the same; or it
fails with the full sink, having taken as many bytes as fit and having called the
host no further. Main result: under a limit the transcript of a run is the first
bytes of the one without a limit, and the calls of the host are the first ones,
followed by the end of the child that lives; a listing is cut in the same way.
-/

namespace LineScript

/-- The calls of the host among events. -/
def hostCalls (events : List Event) : List Event := events.filter Event.isHostCall

/-- Calls of the host in two lists of events. -/
theorem hostCalls_append (first second : List Event) :
    hostCalls (first ++ second) = hostCalls first ++ hostCalls second :=
  List.filter_append _ _

/-- Only calls of the host tell which child lives. -/
theorem liveAfter_hostCalls (child : Option Nat) (events : List Event) :
    liveAfter child (hostCalls events) = liveAfter child events := by
  induction events generalizing child with
  | nil => rfl
  | cons event rest ih =>
    cases event <;> exact ih _

/-- Calls of the host stay where they are when more happens. -/
theorem hostCalls_prefix {β σ : Type} {s t : RunState β σ} {added : List Event}
    (h : t.history = added ++ s.history) : hostCalls s.events <+: hostCalls t.events := by
  rw [RunState.events, RunState.events, h, List.reverse_append, hostCalls_append]
  exact List.prefix_append _ _

namespace LimitedSink

/-- What a sink has taken lies in its pieces. -/
theorem written_congr {sink sink' : LimitedSink} (h : sink'.pieces = sink.pieces) :
    sink'.written = sink.written := by
  rw [written, written, h]

/-- The sink with room for so many bytes more. -/
def withRoom (sink : LimitedSink) (room : Nat) : LimitedSink := { sink with room := some room }

/-- A sink without limit takes a text. -/
theorem write_free {sink : LimitedSink} (h : sink.room = none) (text : String) :
    sink.write text = ({ sink with pieces := Utf8.ofString text :: sink.pieces }, none) := by
  simp only [write, takeBytes, h]

/-- A sink with room for a text takes it. -/
theorem write_withRoom {sink : LimitedSink} {text : String} {room : Nat}
    (h : (Utf8.ofString text).length ≤ room) :
    (sink.withRoom room).write text =
      (withRoom { sink with pieces := Utf8.ofString text :: sink.pieces }
        (room - (Utf8.ofString text).length), none) := by
  simp only [write, takeBytes, withRoom, if_pos h]

/-- A sink without room for a text takes what fits, and fails. -/
theorem write_overflow {sink : LimitedSink} {text : String} {room : Nat}
    (h : room < (Utf8.ofString text).length) :
    (sink.withRoom room).write text =
      (withRoom { sink with pieces := (Utf8.ofString text).take room :: sink.pieces } 0,
        some full) := by
  simp only [write, takeBytes, withRoom, if_neg (Nat.not_le_of_lt h)]

end LimitedSink

namespace RunState

variable {β : Type}

/-- The state with a sink that has room for so many bytes more. -/
def withRoom (s : RunState β LimitedSink) (room : Nat) : RunState β LimitedSink :=
  { s with sink := s.sink.withRoom room }

end RunState

namespace Runner

variable {β α γ : Type}

/-- A runner that writes into the limited sink. -/
def limited (host : Host β) (pollTimeout : Duration) (patience : Nat) : Runner β LimitedSink :=
  ⟨host, LimitedSink.sink, pollTimeout, patience⟩

/-- What a part does with some room on its sink, next to what it does without a
limit, where it writes `new`. -/
structure Truncated (part : Action β LimitedSink α) (s : RunState β LimitedSink)
    (result : Except Halt α) (t : RunState β LimitedSink) (new : Bytes) (room : Nat) : Prop where
  /-- If everything fits, nothing else changes. -/
  fits : new.length ≤ room →
    part.run.run (s.withRoom room) = (result, t.withRoom (room - new.length))
  /-- Else the part fails with the full sink, which has taken what fits, and calls
  the host no further. -/
  overflows : room < new.length → ∃ u,
    part.run.run (s.withRoom room) = (.error (.failed (.io LimitedSink.full)), u) ∧
      u.sink.written = s.sink.written ++ new.take room ∧ hostCalls u.events <+: hostCalls t.events

/-- Whether a part is cut short by a sink that is full, and not touched by it
otherwise. -/
def Truncates (part : Action β LimitedSink α) : Prop :=
  ∀ s, s.sink.room = none → ∃ result t new, part.run.run s = (result, t) ∧ t.sink.room = none ∧
    t.sink.written = s.sink.written ++ new ∧ hostCalls s.events <+: hostCalls t.events ∧
    ∀ room, Truncated part s result t new room

/-- Whether a part writes nothing and does not look at the room. -/
def WritesNothing (part : Action β LimitedSink α) : Prop :=
  ∀ s, ∃ result t added, part.run.run s = (result, t) ∧ t.sink.room = s.sink.room ∧
    t.sink.pieces = s.sink.pieces ∧ t.history = added ++ s.history ∧
    ∀ room, part.run.run (s.withRoom room) = (result, t.withRoom room)

/-- A part that writes nothing is not touched. -/
theorem WritesNothing.truncates {part : Action β LimitedSink α} (h : WritesNothing part) :
    Truncates part := by
  intro s hfree
  obtain ⟨result, t, added, hrun, hroom, hpieces, hhistory, hlimited⟩ := h s
  have hwritten : t.sink.written = s.sink.written ++ [] := by
    rw [LimitedSink.written_congr hpieces, List.append_nil]
  refine ⟨result, t, [], hrun, hroom.trans hfree, hwritten, hostCalls_prefix hhistory,
    fun room => ⟨?_, ?_⟩⟩
  · exact fun _ => hlimited room
  · exact fun h => absurd h (Nat.not_lt_zero room)

/-- Parts that write nothing may follow each other. -/
theorem WritesNothing.bind {part : Action β LimitedSink α} {next : α → Action β LimitedSink γ}
    (hpart : WritesNothing part) (hnext : ∀ a, WritesNothing (next a)) :
    WritesNothing (part >>= next) := by
  intro s
  obtain ⟨result, t, added, hrun, hroom, hpieces, hhistory, hlimited⟩ := hpart s
  cases result with
  | error halt =>
    refine ⟨.error halt, t, added, ?_, hroom, hpieces, hhistory, fun room => ?_⟩
    · rw [run_bind, hrun]
    · rw [run_bind, hlimited room]
  | ok a =>
    obtain ⟨result, t', added', hrun', hroom', hpieces', hhistory', hlimited'⟩ := hnext a t
    refine ⟨result, t', added' ++ added, ?_, hroom'.trans hroom, hpieces'.trans hpieces, ?_,
      fun room => ?_⟩
    · rw [run_bind, hrun]
      exact hrun'
    · rw [hhistory', hhistory, List.append_assoc]
    · rw [run_bind, hlimited room]
      exact hlimited' room

/-- Parts in a row are cut short where one of them is. -/
theorem Truncates.bind {part : Action β LimitedSink α} {next : α → Action β LimitedSink γ}
    (hpart : Truncates part) (hnext : ∀ a, Truncates (next a)) : Truncates (part >>= next) := by
  intro s hfree
  obtain ⟨result, t, new, hrun, hfree', hwritten, hcalls, hroom⟩ := hpart s hfree
  cases result with
  | error halt =>
    refine ⟨.error halt, t, new, ?_, hfree', hwritten, hcalls, fun room => ⟨?_, ?_⟩⟩
    · rw [run_bind, hrun]
    · intro hfits
      rw [run_bind, (hroom room).fits hfits]
    · intro hover
      obtain ⟨u, hu, hkept⟩ := (hroom room).overflows hover
      exact ⟨u, by rw [run_bind, hu], hkept⟩
  | ok a =>
    obtain ⟨result, t', new', hrun', hfree'', hwritten', hcalls', hroom'⟩ := hnext a t hfree'
    refine ⟨result, t', new ++ new', ?_, hfree'', ?_, hcalls.trans hcalls', fun room => ⟨?_, ?_⟩⟩
    · rw [run_bind, hrun]
      exact hrun'
    · rw [hwritten', hwritten, List.append_assoc]
    · intro hfits
      rw [List.length_append] at hfits
      have hlater := (hroom' (room - new.length)).fits (by omega)
      rw [run_bind, (hroom room).fits (by omega)]
      rw [List.length_append, Nat.sub_add_eq]
      exact hlater
    · intro hover
      rw [List.length_append] at hover
      -- The room ends in the first part or in the second one.
      by_cases hfirst : room < new.length
      · obtain ⟨u, hu, htaken, hearlier⟩ := (hroom room).overflows hfirst
        refine ⟨u, by rw [run_bind, hu], ?_, hearlier.trans hcalls'⟩
        rw [htaken, List.take_append_of_le_length (Nat.le_of_lt hfirst)]
      · obtain ⟨u, hu, htaken, hearlier⟩ := (hroom' (room - new.length)).overflows (by omega)
        have htake : new.take room = new := List.take_of_length_le (by omega)
        refine ⟨u, ?_, ?_, hearlier⟩
        · rw [run_bind, (hroom room).fits (by omega)]
          exact hu
        · rw [htaken, hwritten, List.append_assoc, List.take_append, htake]

/-- A part may look at the state if it does not look at the room. -/
theorem Truncates.get_bind {next : RunState β LimitedSink → Action β LimitedSink α}
    (hblind : ∀ s room, next (s.withRoom room) = next s) (hnext : ∀ s, Truncates (next s)) :
    Truncates (get >>= next) := by
  intro s hfree
  have hget (s' : RunState β LimitedSink) :
      (get >>= next).run.run s' = (next s').run.run s' := rfl
  obtain ⟨result, t, new, hrun, hrest⟩ := hnext s s hfree
  refine ⟨result, t, new, (hget s).trans hrun, hrest.1, hrest.2.1, hrest.2.2.1, fun room => ?_⟩
  have hroom := hrest.2.2.2 room
  constructor
  · intro hfits
    rw [hget, hblind]
    exact hroom.fits hfits
  · intro hover
    rw [hget, hblind]
    exact hroom.overflows hover

/-- Giving a value writes nothing. -/
theorem WritesNothing.pure (a : α) : WritesNothing (pure a : Action β LimitedSink α) :=
  fun s => ⟨_, s, [], rfl, rfl, rfl, rfl, fun _ => rfl⟩

/-- Stopping writes nothing. -/
theorem WritesNothing.throw (halt : Halt) :
    WritesNothing (throw halt : Action β LimitedSink α) :=
  fun s => ⟨_, s, [], rfl, rfl, rfl, rfl, fun _ => rfl⟩

/-- A check writes nothing. -/
theorem WritesNothing.check (failure : Option Fault) (error : Fault → RunError) :
    WritesNothing (check failure error : Action β LimitedSink Unit) := by
  cases failure with
  | none => exact .pure ()
  | some fault => exact .throw _

/-- Counting writes nothing. -/
theorem WritesNothing.count (change : Report → Report) :
    WritesNothing (count change : Action β LimitedSink Unit) :=
  fun _ => ⟨_, _, [], rfl, rfl, rfl, rfl, fun _ => rfl⟩

/-- Noting an event writes nothing. -/
theorem WritesNothing.note (event : Event) :
    WritesNothing (note event : Action β LimitedSink Unit) :=
  fun _ => ⟨_, _, [event], rfl, rfl, rfl, rfl, fun _ => rfl⟩

/-- Turning a line into its command writes nothing. -/
theorem WritesNothing.step (text : String) :
    WritesNothing (step text : Action β LimitedSink Command) :=
  fun _ => ⟨_, _, [], rfl, rfl, rfl, rfl, fun _ => rfl⟩

/-- Taking on a child writes nothing. -/
theorem WritesNothing.adopt : WritesNothing (adopt : Action β LimitedSink Unit) :=
  fun _ => ⟨_, _, [], rfl, rfl, rfl, rfl, fun _ => rfl⟩

variable (host : Host β) (pollTimeout : Duration) (patience : Nat)

/-- A line is written as far as it fits. -/
theorem writeLine_truncates (line : String) :
    Truncates ((limited host pollTimeout patience).writeLine line) := by
  intro s hfree
  have hrun (s : RunState β LimitedSink) :
      ((limited host pollTimeout patience).writeLine line).run.run s =
        (Halt.after (s.sink.write (line ++ "\n")).2 .io,
          { s with
            sink := (s.sink.write (line ++ "\n")).1
            history := .write (line ++ "\n") (s.sink.write (line ++ "\n")).2 :: s.history }) :=
    writeLine_run _ line s
  have hcalls (failure : Option Fault) :
      hostCalls (Event.write (line ++ "\n") failure :: s.history).reverse = hostCalls s.events := by
    rw [List.reverse_cons, hostCalls_append]
    exact List.append_nil _
  refine ⟨_, _, Utf8.ofString (line ++ "\n"), hrun s, ?_, ?_, ?_, fun room => ⟨?_, ?_⟩⟩
  · rw [LimitedSink.write_free hfree]
    exact hfree
  · rw [LimitedSink.write_free hfree]
    exact s.sink.written_push _
  · exact (hcalls _).symm ▸ List.prefix_refl _
  · intro hfits
    rw [hrun, RunState.withRoom, LimitedSink.write_withRoom hfits, LimitedSink.write_free hfree]
    rfl
  · intro hover
    refine ⟨_, by rw [hrun, RunState.withRoom, LimitedSink.write_overflow hover]; rfl, ?_, ?_⟩
    · exact s.sink.written_push _
    · exact ((hcalls _).trans (hcalls _).symm) ▸ List.prefix_refl _

/-- Trying to flush writes nothing. -/
theorem tryFlush_writesNothing : WritesNothing (limited host pollTimeout patience).tryFlush :=
  fun _ => ⟨_, _, [_], rfl, rfl, rfl, rfl, fun _ => rfl⟩

/-- The end of a child writes nothing. -/
theorem tryTeardown_writesNothing :
    WritesNothing (limited host pollTimeout patience).tryTeardown := by
  intro s
  cases h : s.child with
  | none =>
    have hroom (room : Nat) : (s.withRoom room).child = none := h
    exact ⟨_, s, [], (tryTeardown_does_nothing _ h).ends, rfl, rfl, rfl,
      fun room => (tryTeardown_does_nothing _ (hroom room)).ends⟩
  | some child =>
    exact ⟨_, _, _, tryTeardown_run _ h, rfl, rfl, rfl, fun room => tryTeardown_run _ h⟩

/-- A start writes nothing. -/
theorem tryStart_writesNothing (env : Environment) :
    WritesNothing ((limited host pollTimeout patience).tryStart env) :=
  fun _ => ⟨_, _, [_], rfl, rfl, rfl, rfl, fun _ => rfl⟩

/-- Handing a text to a child writes nothing. -/
theorem trySend_writesNothing (child : Nat) (text : String) :
    WritesNothing ((limited host pollTimeout patience).trySend child text) :=
  fun _ => ⟨_, _, [_], rfl, rfl, rfl, rfl, fun _ => rfl⟩

/-- A poll writes nothing. -/
theorem poll_writesNothing (child : Nat) :
    WritesNothing ((limited host pollTimeout patience).poll child) :=
  fun _ => ⟨_, _, [_], rfl, rfl, rfl, rfl, fun _ => rfl⟩

/-- The question whether a child has ended writes nothing. -/
theorem hasExited_writesNothing (child : Nat) :
    WritesNothing ((limited host pollTimeout patience).hasExited child) :=
  fun _ => ⟨_, _, [_], rfl, rfl, rfl, rfl, fun _ => rfl⟩

/-- A wait writes nothing. -/
theorem sleep_writesNothing (duration : Duration) :
    WritesNothing ((limited host pollTimeout patience).sleep duration) :=
  fun _ => ⟨_, _, [_], rfl, rfl, rfl, rfl, fun _ => rfl⟩

/-- A flush writes nothing. -/
theorem flush_writesNothing : WritesNothing (limited host pollTimeout patience).flush :=
  (tryFlush_writesNothing host pollTimeout patience).bind fun _ => .check _ _

/-- A drain is cut short where a line of output does not fit. -/
theorem drain_truncates (child left : Nat) :
    Truncates ((limited host pollTimeout patience).drain child left) := by
  have hflush := (flush_writesNothing host pollTimeout patience).truncates
  induction left with
  | zero => exact (WritesNothing.throw _).truncates
  | succ left ih =>
    refine (poll_writesNothing host pollTimeout patience child).truncates.bind fun outcome => ?_
    cases outcome with
    | timeout => exact hflush
    | endOfStream => exact hflush
    | line output =>
      refine (writeLine_truncates host pollTimeout patience _).bind fun _ => ?_
      refine (WritesNothing.count _).truncates.bind fun _ => ?_
      refine (hasExited_writesNothing host pollTimeout patience child).truncates.bind ?_
      intro exited
      cases exited with
      | true => exact hflush
      | false => exact ih

/-- A command is cut short where a line of the transcript does not fit. -/
theorem execute_truncates (line : Line) (command : Command) :
    Truncates ((limited host pollTimeout patience).execute line command) := by
  have hwrite := writeLine_truncates host pollTimeout patience
  have hflush := (flush_writesNothing host pollTimeout patience).truncates
  have hcheck (failure error) :=
    (WritesNothing.check (β := β) failure error).truncates
  have hcount (change) := (WritesNothing.count (β := β) change).truncates
  cases command with
  | nothing => exact (WritesNothing.pure ()).truncates
  | skipMode on => exact hwrite _
  | restart env =>
    refine (tryTeardown_writesNothing host pollTimeout patience).truncates.bind fun failure => ?_
    refine (hcheck _ _).bind fun _ => ?_
    refine (tryStart_writesNothing host pollTimeout patience env).truncates.bind fun failure => ?_
    exact (hcheck _ _).bind fun _ => WritesNothing.adopt.truncates
  | send text =>
    refine .get_bind (fun _ _ => rfl) fun s => ?_
    cases s.child with
    | none => exact hcount _
    | some child =>
      have hsend := (trySend_writesNothing host pollTimeout patience child text).truncates
      refine (hwrite _).bind fun _ => hflush.bind fun _ => hsend.bind fun failure => ?_
      refine (hcheck _ _).bind fun _ => (hcount _).bind fun _ => ?_
      exact drain_truncates host pollTimeout patience child patience
  | delay duration =>
    refine (hwrite _).bind fun _ => hflush.bind fun _ => ?_
    exact (sleep_writesNothing host pollTimeout patience duration).truncates
  | malformed reason => exact (hcount _).bind fun _ => (WritesNothing.note _).truncates

/-- Lines are cut short where a line of the transcript does not fit. -/
theorem runLines_truncates (lines : List Line) :
    Truncates ((limited host pollTimeout patience).runLines lines) := by
  induction lines with
  | nil => exact (WritesNothing.pure ()).truncates
  | cons line rest ih =>
    refine Truncates.bind ?_ fun _ => ih
    refine (WritesNothing.count _).truncates.bind fun _ => ?_
    refine (WritesNothing.step line.text).truncates.bind fun command => ?_
    exact execute_truncates host pollTimeout patience line command

/-- A script is cut short where a line of the transcript does not fit. -/
theorem runScript_truncates (script : Script) :
    Truncates ((limited host pollTimeout patience).runScript script) :=
  (runLines_truncates host pollTimeout patience script.lines).bind fun _ =>
    (WritesNothing.check _ _).truncates

/-- The conclusion of a run writes nothing. -/
theorem conclude_writesNothing (stopped : Except Halt Unit) :
    WritesNothing ((limited host pollTimeout patience).conclude stopped) := by
  refine (tryTeardown_writesNothing host pollTimeout patience).bind fun cleanup => ?_
  refine (tryFlush_writesNothing host pollTimeout patience).bind fun _ => ?_
  match stopped, cleanup with
  | .error (.failed error), none => exact .pure _
  | .error (.failed error), some fault => exact (WritesNothing.note _).bind fun _ => .pure _
  | .error .unfinished, _ => exact .pure _
  | .ok (), some fault => exact .pure _
  | .ok (), none => exact fun s => ⟨_, s, [], rfl, rfl, rfl, rfl, fun _ => rfl⟩

/-- After its script a run writes nothing, and it does the same whatever room is left
by then. -/
theorem run_after_script {script : Script} {s t : RunState β LimitedSink}
    {stopped : Except Halt Unit}
    (h : ((limited host pollTimeout patience).runScript script).run.run s = (stopped, t)) :
    ∃ outcome t', (limited host pollTimeout patience).run script s = (outcome, t') ∧
      t'.sink.written = t.sink.written ∧ hostCalls t.events <+: hostCalls t'.events ∧
      ∀ room left, ((limited host pollTimeout patience).runScript script).run.run
          (s.withRoom room) = (stopped, t.withRoom left) →
        (limited host pollTimeout patience).run script (s.withRoom room) =
          (outcome, t'.withRoom left) := by
  by_cases hne : stopped = .error .unfinished
  · subst hne
    refine ⟨.unfinished, t, by rw [run, h], rfl, List.prefix_refl _, fun room left hroom => ?_⟩
    rw [run, hroom]
  · obtain ⟨concluded, t', added, hconclude, _, hpieces, hhistory, hlimited⟩ :=
      conclude_writesNothing host pollTimeout patience stopped t
    have hwritten : t'.sink.written = t.sink.written := LimitedSink.written_congr hpieces
    have hcalls : hostCalls t.events <+: hostCalls t'.events := hostCalls_prefix hhistory
    have hrun := run_eq_conclude _ h hne
    rw [hconclude] at hrun
    cases concluded with
    | ok outcome =>
      refine ⟨outcome, t', hrun, hwritten, hcalls, fun room left hroom => ?_⟩
      rw [run_eq_conclude _ hroom hne, hlimited left]
    | error =>
      refine ⟨.unfinished, t', hrun, hwritten, hcalls, fun room left hroom => ?_⟩
      rw [run_eq_conclude _ hroom hne, hlimited left]

/-- The end of a child is at most one call of the host. -/
theorem Ended.hostCalls_eq {child : Option Nat} {events : List Event} {failure : Option Fault}
    (h : Ended child events failure) :
    ∃ answer, hostCalls events = child.toList.map fun child => .teardown child answer := by
  cases h with
  | absent => exact ⟨⟨none, none⟩, rfl⟩
  | @called child answer =>
    refine ⟨answer, ?_⟩
    obtain ⟨failure, killedAfter⟩ := answer
    cases killedAfter <;> rfl

/-- A fresh run whose script is stopped by an error ends the child that lives, and
makes no other call of the host. -/
theorem run_of_stopped {σ : Type} {r : Runner β σ} {script : Script} {s u : RunState β σ}
    {error : RunError} (hfresh : s.history = []) (hchild : s.child = none)
    (h : (r.runScript script).run.run s = (.error (.failed error), u)) :
    ∃ u' answer, r.run script s = (.failed error, u') ∧
      hostCalls u'.events = hostCalls u.events ++
        (liveAfter none (hostCalls u.events)).toList.map fun child => .teardown child answer := by
  obtain ⟨events, result, u₁, hlines, hscript⟩ := r.runScript_does script s
  obtain ⟨hstopped, rfl⟩ := Prod.mk.inj (hscript.ends.symm.trans h)
  rw [hstopped] at hscript
  obtain ⟨cleanup, failure, closing, u', hconclude, hended, _⟩ := r.conclude_failed error u₁
  obtain ⟨hrun, -, -⟩ := r.run_concludes hscript hconclude nofun
  have hevents : u₁.events = events := by
    rw [RunState.events, hscript.noted, hfresh, List.append_nil, List.reverse_reverse]
  have hlive : u₁.child = liveAfter none (hostCalls u₁.events) := by
    rw [liveAfter_hostCalls, hevents, ← hchild]
    exact hlines.keeps.child_eq
  have hlast : hostCalls (.flush closing :: farewell failure) = [] := by
    cases failure <;> rfl
  have hcalls : hostCalls u'.events = hostCalls u₁.events ++ hostCalls cleanup := by
    rw [RunState.events, hconclude.noted, List.reverse_append, List.reverse_reverse,
      hostCalls_append, hostCalls_append, hlast, List.append_nil]
    rfl
  obtain ⟨answer, hteardown⟩ := hended.hostCalls_eq
  exact ⟨u', answer, hrun, by rw [hcalls, hteardown, hlive]⟩

end Runner

namespace DryRun

/-- Texts in turn are written as far as they fit. -/
theorem writeAll_truncates (texts : List String) (sink : LimitedSink) (hfree : sink.room = none) :
    ∃ full new, writeAll LimitedSink.sink sink texts = (full, none) ∧
      full.written = sink.written ++ new ∧
      ∀ room,
        (new.length ≤ room → writeAll LimitedSink.sink (sink.withRoom room) texts =
          (full.withRoom (room - new.length), none)) ∧
        (room < new.length → ∃ cut,
          writeAll LimitedSink.sink (sink.withRoom room) texts = (cut, some LimitedSink.full) ∧
            cut.written = sink.written ++ new.take room) := by
  induction texts generalizing sink with
  | nil =>
    refine ⟨sink, [], rfl, (List.append_nil _).symm, fun room => ⟨fun _ => rfl, ?_⟩⟩
    exact fun h => absurd h (Nat.not_lt_zero room)
  | cons text rest ih =>
    let own := Utf8.ofString text
    have hwrite : LimitedSink.sink.write sink text =
        ({ sink with pieces := own :: sink.pieces }, none) := LimitedSink.write_free hfree text
    obtain ⟨full, new, hrest, hwritten, hroom⟩ :=
      ih { sink with pieces := own :: sink.pieces } hfree
    rw [sink.written_push, List.append_assoc] at hwritten
    refine ⟨full, own ++ new, ?_, hwritten, fun room => ⟨fun hfits => ?_, fun hover => ?_⟩⟩
    · rw [writeAll, hwrite]
      exact hrest
    · rw [List.length_append] at hfits
      have hown : LimitedSink.sink.write (sink.withRoom room) text = _ :=
        LimitedSink.write_withRoom (show own.length ≤ room by omega)
      rw [writeAll, hown, List.length_append, Nat.sub_add_eq]
      exact (hroom (room - own.length)).1 (by omega)
    · rw [List.length_append] at hover
      by_cases hfirst : room < own.length
      · have hown : LimitedSink.sink.write (sink.withRoom room) text = _ :=
          LimitedSink.write_overflow hfirst
        refine ⟨_, by rw [writeAll, hown], ?_⟩
        rw [List.take_append_of_le_length (Nat.le_of_lt hfirst)]
        exact sink.written_push _
      · have hown : LimitedSink.sink.write (sink.withRoom room) text = _ :=
          LimitedSink.write_withRoom (show own.length ≤ room by omega)
        obtain ⟨cut, hcut, htaken⟩ := (hroom (room - own.length)).2 (by omega)
        rw [sink.written_push, List.append_assoc] at htaken
        refine ⟨cut, ?_, ?_⟩
        · rw [writeAll, hown]
          exact hcut
        · have hall : own.take room = own := List.take_of_length_le (by omega)
          rw [htaken, List.take_append, hall]

/-- After its texts a listing writes nothing, and it ends the same whatever room is
left by then. -/
theorem run_after_texts {script : Script} {sink full : LimitedSink}
    (h : writeAll LimitedSink.sink sink (texts script) = (full, none)) :
    ∃ result listed, run LimitedSink.sink script sink = (result, listed) ∧
      listed.written = full.written ∧
      ∀ sink' room, writeAll LimitedSink.sink sink' (texts script) = (full.withRoom room, none) →
        run LimitedSink.sink script sink' = (result, listed.withRoom room) := by
  cases hread : script.failure with
  | some fault =>
    refine ⟨.error (.io fault), full, by simp only [run, h, hread], rfl, fun sink' room h' => ?_⟩
    simp only [run, h', hread]
  | none =>
    -- A flush neither writes nor looks at the room.
    have hflush (room : Nat) : LimitedSink.sink.flush (full.withRoom room) =
        (full.flush.1.withRoom room, full.flush.2) := rfl
    have hflush' : LimitedSink.sink.flush full = (full.flush.1, full.flush.2) := rfl
    cases hclosing : full.flush.2 with
    | some fault =>
      refine ⟨.error (.io fault), full.flush.1, ?_, rfl, fun sink' room h' => ?_⟩
      · simp only [run, h, hread, hflush', hclosing]
      · simp only [run, h', hread, hflush, hclosing]
    | none =>
      refine ⟨.ok (report script), full.flush.1, ?_, rfl, fun sink' room h' => ?_⟩
      · simp only [run, h, hread, hflush', hclosing]
      · simp only [run, h', hread, hflush, hclosing]

/-- A listing is written as far as it fits. -/
theorem listing_truncates (script : Script) (limit : Nat) :
    ∃ result listed result' listed', run LimitedSink.sink script {} = (result, listed) ∧
      run LimitedSink.sink script { room := some limit } = (result', listed') ∧
      listed'.written = listed.written.take limit ∧
      (listed.written.length ≤ limit → result' = result) ∧
      (limit < listed.written.length → result' = .error (.io LimitedSink.full)) := by
  obtain ⟨full, new, hall, hwritten, hroom⟩ := writeAll_truncates (texts script) {} rfl
  obtain ⟨result, listed, hrun, hlisted, hlimited⟩ := run_after_texts hall
  obtain rfl : listed.written = new := hlisted.trans hwritten
  obtain ⟨hfits, hover⟩ := hroom limit
  by_cases h : listed.written.length ≤ limit
  · refine ⟨result, listed, result, _, hrun, hlimited _ _ (hfits h), ?_, fun _ => rfl, ?_⟩
    · exact (List.take_of_length_le h).symm
    · exact fun hlt => absurd h (Nat.not_le_of_lt hlt)
  · obtain ⟨cut, hcut, htaken⟩ := hover (Nat.lt_of_not_le h)
    have hrun' : run LimitedSink.sink script { room := some limit } =
        (.error (.io LimitedSink.full), cut) := by
      have hcut' : writeAll LimitedSink.sink { room := some limit } (texts script) =
        (cut, some LimitedSink.full) := hcut
      rw [run, hcut']
    exact ⟨result, listed, _, cut, hrun, hrun', htaken, fun hle => absurd hle h, fun _ => rfl⟩

end DryRun

namespace Runner

variable {β : Type}

/-- Under a limit of bytes the transcript of a fresh run is the first bytes of the
one without a limit. If it fits, nothing else changes; and else the run fails with
the full sink, having made the first calls of the host and then no more than the end
of the child that lives. A listing is cut in the same way. -/
theorem run_truncates (host : Host β) (pollTimeout : Duration) (patience : Nat) (script : Script)
    (start : β) (limit : Nat) :
    (∃ outcome s outcome' s',
      (limited host pollTimeout patience).run script { host := start, sink := {} } =
        (outcome, s) ∧
      (limited host pollTimeout patience).run script
        { host := start, sink := { room := some limit } } = (outcome', s') ∧
      s'.sink.written = s.sink.written.take limit ∧
      (s.sink.written.length ≤ limit →
        outcome' = outcome ∧ s' = s.withRoom (limit - s.sink.written.length)) ∧
      (limit < s.sink.written.length → outcome' = .failed (.io LimitedSink.full) ∧
        ∃ before answer, before <+: hostCalls s.events ∧
          hostCalls s'.events = before ++
            (liveAfter none before).toList.map fun child => .teardown child answer)) ∧
    ∃ result listed result' listed',
      DryRun.run LimitedSink.sink script {} = (result, listed) ∧
      DryRun.run LimitedSink.sink script { room := some limit } = (result', listed') ∧
      listed'.written = listed.written.take limit ∧
      (listed.written.length ≤ limit → result' = result) ∧
      (limit < listed.written.length → result' = .error (.io LimitedSink.full)) := by
  refine ⟨?_, DryRun.listing_truncates script limit⟩
  obtain ⟨stopped, t, new, hscript, _, hwritten, _, hroom⟩ :=
    runScript_truncates host pollTimeout patience script { host := start, sink := {} } rfl
  obtain ⟨outcome, s, hrun, hkept, hcalls, hlimited⟩ :=
    run_after_script host pollTimeout patience hscript
  obtain rfl : s.sink.written = new := hkept.trans hwritten
  obtain ⟨hfits, hover⟩ := hroom limit
  by_cases h : s.sink.written.length ≤ limit
  · refine ⟨outcome, s, outcome, _, hrun, hlimited _ _ (hfits h), ?_, fun _ => ⟨rfl, rfl⟩, ?_⟩
    · exact (List.take_of_length_le h).symm
    · exact fun hlt => absurd h (Nat.not_le_of_lt hlt)
  · obtain ⟨u, hu, htaken, hearlier⟩ := hover (Nat.lt_of_not_le h)
    obtain ⟨s', answer, hrun', hends⟩ := run_of_stopped rfl rfl hu
    obtain ⟨_, _, hagain, hcut, _⟩ := run_after_script host pollTimeout patience hu
    cases hrun'.symm.trans hagain
    refine ⟨outcome, s, _, s', hrun, hrun', hcut.trans htaken, fun hle => absurd hle h, ?_⟩
    exact fun _ => ⟨rfl, _, answer, hearlier.trans hcalls, hends⟩

/-- A line that does not fit is not sent, and its child is ended. -/
example :
    let run := planned.run ⟨"/", [⟨1, "RESTART"⟩, ⟨2, "hello"⟩], none⟩
      { host := { coming := [{}] }, sink := { room := some 4 } }
    run.1 = .failed (.io LimitedSink.full) ∧ run.2.sink.written = Utf8.ofString "> he" ∧
      hostCalls run.2.events = [.start 0 .empty none, .teardown 0 {}] := by
  decide +kernel

end Runner

end LineScript
