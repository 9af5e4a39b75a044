import LineScript.Proofs.Course

/-!
# Patience

The bound on the polls of one drain is there to make every run a finite
computation. Main result: it does not matter otherwise. A run that ends is the
same under any greater bound, to the last event, so whatever holds for a run that
ends holds for the run without a bound.
-/

namespace LineScript

namespace Runner

variable {β σ α γ : Type}

/-- The runner with another patience. -/
def withPatience (r : Runner β σ) (patience : Nat) : Runner β σ := { r with patience }

/-- Whether a part does what another one does, in every state in which the other
one comes to an end. -/
def Settles (part part' : Action β σ α) : Prop :=
  ∀ s, (part.run.run s).1 ≠ .error .unfinished → part'.run.run s = part.run.run s

/-- A part does what it does. -/
theorem Settles.refl (part : Action β σ α) : Settles part part := fun _ _ => rfl

/-- Parts in a row may be replaced one by one. -/
theorem Settles.bind {part part' : Action β σ α} {next next' : α → Action β σ γ}
    (hpart : Settles part part') (hnext : ∀ a, Settles (next a) (next' a)) :
    Settles (part >>= next) (part' >>= next') := by
  intro s hends
  rw [run_bind] at hends ⊢
  rw [run_bind]
  rcases hrun : part.run.run s with ⟨result, s'⟩
  rw [hrun] at hends
  have hpart' : part'.run.run s = (result, s') := by
    rw [← hrun]
    refine hpart s ?_
    rw [hrun]
    rintro rfl
    exact hends rfl
  rw [hpart']
  cases result with
  | error halt => rfl
  | ok a => exact hnext a s' hends

/-- A drain with more polls left does the same. -/
theorem drain_settles (r : Runner β σ) (patience child : Nat) {left left' : Nat}
    (hle : left ≤ left') :
    Settles (r.drain child left) ((r.withPatience patience).drain child left') := by
  induction left generalizing left' with
  -- With no poll left a drain comes to no end, whatever the other one does.
  | zero =>
    intro s hends
    exact absurd rfl hends
  | succ left ih =>
    cases left' with
    | zero => omega
    | succ left' =>
      refine Settles.bind (.refl (r.poll child)) fun outcome => ?_
      cases outcome with
      | timeout => exact .refl r.flush
      | endOfStream => exact .refl r.flush
      | line output =>
        refine Settles.bind (.refl (r.writeLine _)) fun _ => ?_
        refine Settles.bind (.refl (count _)) fun _ => ?_
        refine Settles.bind (.refl (r.hasExited child)) fun exited => ?_
        cases exited with
        | true => exact .refl r.flush
        | false => exact ih (Nat.le_of_succ_le_succ hle)

/-- A command does the same under a greater patience. -/
theorem execute_settles (r : Runner β σ) {patience : Nat} (hle : r.patience ≤ patience)
    (line : Line) (command : Command) :
    Settles (r.execute line command) ((r.withPatience patience).execute line command) := by
  cases command with
  | send text =>
    refine Settles.bind (.refl get) fun s => ?_
    cases s.child with
    | none => exact .refl _
    | some child =>
      refine Settles.bind (.refl (r.writeLine _)) fun _ => ?_
      refine Settles.bind (.refl r.flush) fun _ => ?_
      refine Settles.bind (.refl (r.trySend child text)) fun failure => ?_
      refine Settles.bind (.refl (check failure _)) fun _ => ?_
      refine Settles.bind (.refl (count _)) fun _ => ?_
      exact r.drain_settles patience child hle
  | nothing => exact .refl _
  | skipMode on => exact .refl (r.writeLine _)
  | restart env => exact .refl (r.restart line env)
  | delay duration => exact .refl (r.delay duration)
  | malformed reason => exact .refl (r.execute line (.malformed reason))

/-- A line does the same under a greater patience. -/
theorem runLine_settles (r : Runner β σ) {patience : Nat} (hle : r.patience ≤ patience)
    (line : Line) : Settles (r.runLine line) ((r.withPatience patience).runLine line) := by
  refine Settles.bind (.refl (count _)) fun _ => ?_
  exact Settles.bind (.refl (step line.text)) fun command => r.execute_settles hle line command

/-- Lines do the same under a greater patience. -/
theorem runLines_settles (r : Runner β σ) {patience : Nat} (hle : r.patience ≤ patience)
    (lines : List Line) :
    Settles (r.runLines lines) ((r.withPatience patience).runLines lines) := by
  induction lines with
  | nil => exact .refl _
  | cons line rest ih => exact Settles.bind (r.runLine_settles hle line) fun _ => ih

/-- A run that ends is the same under a greater patience. -/
theorem run_withPatience {r : Runner β σ} {script : Script} {s : RunState β σ} {patience : Nat}
    (hends : (r.run script s).1 ≠ .unfinished) (hle : r.patience ≤ patience) :
    (r.withPatience patience).run script s = r.run script s := by
  have hscript : Settles (r.runScript script) ((r.withPatience patience).runScript script) :=
    Settles.bind (r.runLines_settles hle script.lines) fun _ => .refl _
  rcases hrun : (r.runScript script).run.run s with ⟨stopped, s'⟩
  have hne : stopped ≠ .error .unfinished := by
    rintro rfl
    rw [run, hrun] at hends
    exact hends rfl
  have hsame : ((r.withPatience patience).runScript script).run.run s = (stopped, s') := by
    rw [← hrun]
    refine hscript s ?_
    rw [hrun]
    exact hne
  rw [run, run, hsame, hrun]
  rfl

/-- What holds of a run for every patience up to one that suffices holds of it for
every patience. -/
theorem forall_run_withPatience {r : Runner β σ} {script : Script} {s : RunState β σ}
    {P : Outcome × RunState β σ → Prop} (hends : (r.run script s).1 ≠ .unfinished)
    (hfew : ∀ patience ≤ r.patience, P ((r.withPatience patience).run script s)) (patience : Nat) :
    P ((r.withPatience patience).run script s) := by
  rcases Nat.le_total patience r.patience with hle | hge
  · exact hfew patience hle
  · rw [run_withPatience hends hge]
    exact hfew r.patience (Nat.le_refl _)

end Runner

end LineScript
