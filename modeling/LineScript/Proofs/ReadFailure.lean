import LineScript.DryRun
import LineScript.Proofs.Course
import LineScript.Proofs.Reading

/-!
# Scripts that cannot be read to their end

A script whose reading fails is compared with the script of just the lines before the
failure. Both are carried out in the same way, line by line; the failure of reading stands
in the result only, and only if no line failed before it. Main result: the two runs leave
the same state and make the same calls, except that the longer one warns of a child that
cannot be ended after its last line, where the shorter one fails; and the two listings have
the same text.
-/

namespace LineScript

namespace Script

/-- Why a script could not be read to its end: what its source does in place of the end
after all complete lines, or the next line that is not UTF-8. -/
inductive Unread (source : Source) (count : Nat) : Fault → Prop
  /-- All complete lines were read, and then the source failed. -/
  | source {fault} (hfailure : source.failure = some fault)
      (hcount : count = (splitLines source.bytes).1.length) : Unread source count fault
  /-- The next line is not UTF-8. -/
  | malformed {raw malformed}
      (hnext : (deliveredLines source.bytes source.failure)[count]? = some raw)
      (hraw : Utf8.decodeString (dropTerminator raw) = .error malformed) :
      Unread source count ⟨.invalidData, malformed.message⟩

/-- Reading fails for one of these reasons. -/
theorem read_unread {baseDir : String} {source : Source} {fault : Fault}
    (h : (read baseDir source).failure = some fault) :
    Unread source (read baseDir source).lines.length fault := by
  rw [read_eq] at h ⊢
  dsimp only at h ⊢
  rcases prepareLines_failure baseDir source.failure 1
    ((deliveredLines source.bytes source.failure).map dropTerminator) with
    ⟨hlength, hfailure⟩ | ⟨line, malformed, hnext, hline, hfailure⟩
  · rw [hfailure] at h
    refine .source h ?_
    rw [hlength, List.length_map, deliveredLines, h, Option.isSome_some, Bool.true_or, if_pos rfl,
      List.append_nil]
  · rw [hfailure] at h
    cases h
    rw [List.getElem?_map, Option.map_eq_some_iff] at hnext
    obtain ⟨raw, hraw, rfl⟩ := hnext
    exact .malformed hraw hline

end Script

namespace Runner

variable {β σ : Type} (r : Runner β σ)

/-- A script does what its lines do, and then checks how its reading went. -/
theorem runScript_run (script : Script) (s : RunState β σ) :
    (r.runScript script).run.run s =
      match (r.runLines script.lines).run.run s with
      | (.ok (), t) => (Halt.after script.failure .io, t)
      | (.error halt, t) => (.error halt, t) := by
  rw [runScript, run_bind]
  rcases (r.runLines script.lines).run.run s with ⟨result, t⟩
  cases result with
  | ok => exact (r.check_does script.failure .io t).ends
  | error halt => rfl

/-- After a failure a run is concluded like one without, but for the result and a warning
if the child cannot be ended. -/
theorem conclude_sides (t : RunState β σ) :
    ∃ cleanup u, (r.conclude (.ok ())).run.run t =
        (.ok (cleanup.elim (.finished u.report) fun fault => .failed (.io fault)), u) ∧
      ∀ error, (r.conclude (.error (.failed error))).run.run t =
        (.ok (.failed error), { u with history := farewell cleanup ++ u.history }) := by
  obtain ⟨_, cleanup, t₁, hend, _, _⟩ := r.tryTeardown_ends t
  obtain ⟨_, u, hflush, _⟩ := r.tryFlush_does t₁
  refine ⟨cleanup, u, ?_, fun error => ?_⟩
  · rw [conclude, run_bind, hend.ends]
    simp only [run_bind, hflush.ends]
    cases cleanup <;> rfl
  · rw [conclude, run_bind, hend.ends]
    simp only [run_bind, hflush.ends]
    cases cleanup <;> rfl

/-- How the run of a script that could not be read to its end compares with the run of the
lines before the failure. -/
inductive RunsUnread (long short : Script) (fault : Fault) (s : RunState β σ) : Prop
  /-- A line stops both runs, and they are the same. -/
  | stopped {halt t} (hlines : (r.runLines long.lines).run.run s = (.error halt, t))
      (hsame : r.run long s = r.run short s) : RunsUnread long short fault s
  /-- All lines are carried out. One run ends with the failure of reading, and the other one
  with how its last child is ended, and otherwise with its report; a child that cannot be
  ended is warned of in the first run. -/
  | unread {t u cleanup} (hlines : (r.runLines long.lines).run.run s = (.ok (), t))
      (hshort : r.run short s =
        (cleanup.elim (.finished u.report) fun fault => .failed (.io fault), u))
      (hlong : r.run long s =
        (.failed (.io fault), { u with history := farewell cleanup ++ u.history })) :
      RunsUnread long short fault s

/-- Scripts of the same lines run alike but for a failure of reading. -/
theorem runs_unread {long short : Script} {fault : Fault} (hlines : short.lines = long.lines)
    (hlong : long.failure = some fault) (hshort : short.failure = none) (s : RunState β σ) :
    r.RunsUnread long short fault s := by
  have hlongScript := r.runScript_run long s
  have hshortScript := r.runScript_run short s
  rw [hlines] at hshortScript
  rcases hrun : (r.runLines long.lines).run.run s with ⟨result, t⟩
  rw [hrun] at hlongScript hshortScript
  cases result with
  | error halt =>
    refine .stopped hrun ?_
    rw [run, run, hlongScript, hshortScript]
  | ok =>
    rw [hlong] at hlongScript
    rw [hshort] at hshortScript
    obtain ⟨cleanup, u, hdone, hfailed⟩ := r.conclude_sides t
    have hended : (.ok () : Except Halt Unit) ≠ .error .unfinished := by
      intro hsame
      cases hsame
    have hunread : (.error (.failed (.io fault)) : Except Halt Unit) ≠ .error .unfinished := by
      intro hsame
      cases hsame
    have hshortRun : r.run short s =
        (cleanup.elim (.finished u.report) fun fault => .failed (.io fault), u) := by
      rw [r.run_eq_conclude hshortScript hended]
      simp only [Halt.after, hdone]
    have hlongRun : r.run long s =
        (.failed (.io fault), { u with history := farewell cleanup ++ u.history }) := by
      rw [r.run_eq_conclude hlongScript hunread]
      simp only [Halt.after, hfailed]
    exact .unread hrun hshortRun hlongRun

end Runner

namespace DryRun

/-- How the listing of a script that could not be read to its end compares with the listing
of the lines before the failure. -/
inductive ListsUnread {σ : Type} (sink : Sink σ) (long short : Script) (fault : Fault)
    (page : σ) : Prop
  /-- The same text cannot be written, and nothing comes after it. -/
  | unwritten {failure page'}
      (hwrite : writeAll sink page (texts long) = (page', some failure))
      (hlong : run sink long page = (.error (.io failure), page'))
      (hshort : run sink short page = (.error (.io failure), page')) :
      ListsUnread sink long short fault page
  /-- All texts are written, and the failure of reading stands in place of a flush. -/
  | unread {page'} (hwrite : writeAll sink page (texts long) = (page', none))
      (hlong : run sink long page = (.error (.io fault), page'))
      (hshort : (run sink short page).2 = (sink.flush page').1) :
      ListsUnread sink long short fault page

/-- Scripts of the same lines are listed alike but for a failure of reading. -/
theorem lists_unread {σ : Type} (sink : Sink σ) {long short : Script} {fault : Fault}
    (htexts : texts short = texts long) (hlong : long.failure = some fault)
    (hshort : short.failure = none) (page : σ) : ListsUnread sink long short fault page := by
  rcases hwrite : writeAll sink page (texts long) with ⟨page', failure⟩
  cases failure with
  | some failure =>
    refine .unwritten hwrite ?_ ?_
    · rw [run, hwrite]
    · rw [run, htexts, hwrite]
  | none =>
    refine .unread hwrite ?_ ?_
    · simp only [run, hwrite, hlong]
    · simp only [run, htexts, hwrite, hshort]
      rcases sink.flush page' with ⟨page'', failure⟩
      cases failure <;> rfl

end DryRun

namespace Runner

variable {β σ : Type}

/-- A script whose reading fails, for whatever reason, is carried out and listed like the
script of just the lines before the failure, which can be read. Unless a line fails before
it, the failure of reading is the result, and a child that cannot be ended after the last
line is then warned of, where it would be the result of the shorter script. -/
theorem run_unread (r : Runner β σ) {baseDir : String} {source : Source} {long short : Script}
    {fault : Fault} (hlong : Script.read baseDir source = long)
    (hshort : Script.read baseDir (.ofBytes (source.firstLines long.lines.length)) = short)
    (hfault : long.failure = some fault) (s : RunState β σ) (page : σ) :
    short = ⟨long.baseDir, long.lines, none⟩ ∧
      Script.Unread source long.lines.length fault ∧ r.RunsUnread long short fault s ∧
      DryRun.texts short = DryRun.texts long ∧
      DryRun.ListsUnread r.sink long short fault page := by
  subst hlong
  have hbaseDir : (Script.read baseDir source).baseDir = baseDir := by rw [Script.read_eq]
  have hfirst : short = ⟨baseDir, (Script.read baseDir source).lines, none⟩ :=
    hshort.symm.trans (Script.read_firstLines hfault)
  have hlines : short.lines = (Script.read baseDir source).lines := by rw [hfirst]
  have hread : short.failure = none := by rw [hfirst]
  have htexts : DryRun.texts short = DryRun.texts (Script.read baseDir source) := by
    rw [hfirst, DryRun.texts, DryRun.texts, hbaseDir]
    rfl
  rw [← hbaseDir] at hfirst
  exact ⟨hfirst, Script.read_unread hfault, r.runs_unread hlines hfault hread s, htexts,
    DryRun.lists_unread r.sink htexts hfault hread page⟩

/-- The bytes of a script with a bad byte after a text. -/
def badByteAfterText : Bytes := Utf8.ofString "RESTART\na\n" ++ [0xFF]

/-- A bad byte after a text: the child takes the text, and the failure of reading comes
after it. -/
theorem run_unread_of_bad_byte :
    ∃ long short : Script, Script.read "/" (.ofBytes badByteAfterText) = long ∧
      long.lines = [⟨1, "RESTART"⟩, ⟨2, "a"⟩] ∧ short = ⟨"/", long.lines, none⟩ ∧
      planned.RunsUnread long short
        ⟨.invalidData, "invalid utf-8 sequence of 1 bytes from index 0"⟩ (.planned [{}]) := by
  have hread :
      (Script.read "/" (.ofBytes badByteAfterText)).lines = [⟨1, "RESTART"⟩, ⟨2, "a"⟩] ∧
      (Script.read "/" (.ofBytes badByteAfterText)).failure =
        some ⟨.invalidData, "invalid utf-8 sequence of 1 bytes from index 0"⟩ ∧
      (Script.read "/" (.ofBytes badByteAfterText)).baseDir = "/" := by
    decide +kernel
  obtain ⟨hlines, hfault, hbaseDir⟩ := hread
  obtain ⟨hshort, _, hruns, _⟩ := run_unread planned rfl rfl hfault (.planned [{}]) {}
  rw [hbaseDir] at hshort
  exact ⟨_, _, rfl, hlines, hshort, hruns⟩

/-- A script with nothing but a restart. -/
def restartOnly : Script := Script.read "/" (.ofBytes (Utf8.ofString "RESTART\n"))

/-- The same, and a bad byte after it. -/
def badByteAfterRestart : Script := Script.read "/" (.ofBytes (Utf8.ofString "RESTART\n" ++ [0xFF]))

/-- A child that cannot be ended. -/
def stuck : List ChildPlan := [{ teardownFailure := some ⟨.other, "stuck"⟩ }]

/-- A child that cannot be ended, right before a bad byte: the run of the line before it
fails with that and warns of nothing, but the run of the whole script warns of it. -/
theorem run_unread_warns :
    badByteAfterRestart.failure.isSome = true ∧ restartOnly.failure.isNone = true ∧
      restartOnly.lines = badByteAfterRestart.lines ∧
      (planned.run restartOnly (.planned stuck)).2.events.filterMap Event.warning? = [] ∧
      (planned.run badByteAfterRestart (.planned stuck)).2.events.filterMap Event.warning? =
        [.cleanupFailed ⟨.other, "stuck"⟩] := by
  decide +kernel

end Runner

end LineScript
