import Mathlib.Data.List.Sort
import LineScript.Proofs.ClosedForm
import LineScript.Proofs.DryRun

/-!
# Environments are canonical

An environment comes about by setting variables and by forgetting all of them, and what it keeps
of this is the last value of each variable. Two histories that leave the same values leave the same
environment, with the same entries in the same order. Main result: the order in which different
variables were set makes no difference, neither for the environment, nor for what a dry run of a
script lists at its restarts, nor for what the children of a run are started with.
-/

namespace LineScript

namespace Environment

/-! ## Changes of an environment -/

/-- A change of the variables. -/
inductive Change where
  /-- A variable is set. -/
  | set (key value : String)
  /-- All variables are forgotten. -/
  | clear
  deriving DecidableEq, Repr

/-- Whether a change sets or forgets a variable. -/
def Change.concerns (key : String) : Change → Bool
  | .set name _ => name == key
  | .clear => true

/-- The environment after a change. -/
def change (env : Environment) : Change → Environment
  | .set key value => env.set key value
  | .clear => empty

/-- The environment after changes in turn. -/
def after (env : Environment) (changes : List Change) : Environment := changes.foldl change env

/-- The names that are listed. -/
def keys (env : Environment) : List String := env.entries.map Prod.fst

/-- Whether a variable was set to a value, and neither set again nor forgotten later. -/
def LastSet (changes : List Change) (key value : String) : Prop :=
  ∃ before later, changes = before ++ .set key value :: later ∧
    ∀ change ∈ later, change.concerns key = false

/-- Whether an environment is what changes leave: the last values, listed by name. -/
structure IsLeftBy (env : Environment) (changes : List Change) : Prop where
  /-- The names strictly increase in the order of the bytes that encode them. -/
  increasing : (env.keys.map Utf8.ofString).Pairwise (· < ·)
  /-- Listed are the last values, and nothing else. -/
  mem_iff : ∀ key value, (key, value) ∈ env.entries ↔ LastSet changes key value
  /-- A variable has the value that it was last set to, unless all were forgotten later. -/
  value_iff : ∀ key value, env.get? key = some value ↔ LastSet changes key value
  /-- Every listed name is counted. -/
  size_eq : env.size = env.keys.length
  /-- There are no variables exactly if none is counted. -/
  isEmpty_iff : env.isEmpty = true ↔ env.size = 0

/-- The first change comes first. -/
theorem after_cons (env : Environment) (change : Change) (rest : List Change) :
    env.after (change :: rest) = (env.change change).after rest := rfl

/-- The last change comes last. -/
theorem after_concat (env : Environment) (changes : List Change) (change : Change) :
    env.after (changes ++ [change]) = (env.after changes).change change := List.foldl_concat ..

/-- A change that does not concern a variable leaves its value. -/
theorem get?_change_of_not_concerns {change : Change} {key : String}
    (h : change.concerns key = false) (env : Environment) :
    (env.change change).get? key = env.get? key := by
  cases change with
  | clear => cases h
  | set name value =>
    have hne : key ≠ name := fun heq => beq_eq_false_iff_ne.mp h heq.symm
    rw [Environment.change, get?_set, if_neg hne]

/-- A change that concerns a variable decides its value. -/
theorem get?_change_of_concerns {change : Change} {key : String}
    (h : change.concerns key = true) (env : Environment) (value : String) :
    (env.change change).get? key = some value ↔ change = .set key value := by
  cases change with
  | clear => simp [Environment.change]
  | set name given =>
    obtain rfl : name = key := beq_iff_eq.mp h
    rw [Environment.change, get?_set, if_pos rfl]
    simp

/-- One more change sets the variable for the last time, or does not concern it. -/
theorem lastSet_concat {changes : List Change} {change : Change} {key value : String} :
    LastSet (changes ++ [change]) key value ↔
      change = .set key value ∨ change.concerns key = false ∧ LastSet changes key value := by
  constructor
  · rintro ⟨before, later, hchanges, hlater⟩
    rcases List.eq_nil_or_concat later with rfl | ⟨earlier, last, rfl⟩
    · exact .inl (List.singleton_inj.mp (List.append_inj_right' hchanges rfl))
    · rw [List.concat_eq_append, ← List.cons_append, ← List.append_assoc] at hchanges
      obtain ⟨rfl, hlast⟩ := List.append_inj' hchanges rfl
      obtain rfl := List.singleton_inj.mp hlast
      refine .inr ⟨hlater change (by simp), before, earlier, rfl, fun other hmem => ?_⟩
      exact hlater other (by simp [hmem])
  · rintro (rfl | ⟨hother, before, later, rfl, hlater⟩)
    · exact ⟨changes, [], rfl, List.forall_mem_nil _⟩
    · refine ⟨before, later ++ [change], by simp, ?_⟩
      exact List.forall_mem_append.mpr ⟨hlater, List.forall_mem_singleton.mpr hother⟩

/-- After changes a variable has the value that it was last set to. -/
theorem get?_after (changes : List Change) (key value : String) :
    (empty.after changes).get? key = some value ↔ LastSet changes key value := by
  induction changes using List.reverseRecOn with
  | nil => simp [after, LastSet]
  | append_singleton changes change ih =>
    rw [lastSet_concat, after_concat]
    cases hconcerns : change.concerns key with
    | true =>
      rw [get?_change_of_concerns hconcerns]
      simp
    | false =>
      rw [get?_change_of_not_concerns hconcerns, ih]
      have hne : change ≠ .set key value := by
        rintro rfl
        simp [Change.concerns] at hconcerns
      simp [hne]

/-- Changes leave the last values, listed by name. -/
theorem isLeftBy_after (changes : List Change) : (empty.after changes).IsLeftBy changes where
  increasing := by
    rw [keys, List.map_map, List.pairwise_map]
    exact (empty.after changes).sorted
  mem_iff key value := by rw [← get?_eq_some_iff, get?_after]
  value_iff := get?_after changes
  size_eq := by rw [size, keys, List.length_map]
  isEmpty_iff := by rw [isEmpty, size, List.isEmpty_iff, List.length_eq_zero_iff]

/-! ## Values decide the environment -/

/-- Environments with the same values are equal. -/
theorem ext_get? {a b : Environment} (h : ∀ key, a.get? key = b.get? key) : a = b := by
  have hirrefl : Std.Irrefl fun x y : String × String => keyOrder x.1 y.1 :=
    ⟨fun x => keyOrder_irrefl x.1⟩
  have hantisymm : Std.Antisymm fun x y : String × String => keyOrder x.1 y.1 :=
    ⟨fun x y hxy hyx => absurd (keyOrder_trans hxy hyx) (keyOrder_irrefl x.1)⟩
  refine ext (a.sorted.eq_of_mem_iff b.sorted ?_)
  rintro ⟨key, value⟩
  rw [← get?_eq_some_iff, ← get?_eq_some_iff, h]

/-- Lists of environments are equal if each variable has the same values in them. -/
theorem eq_of_map_get? {first second : List Environment}
    (h : ∀ key, first.map (·.get? key) = second.map (·.get? key)) : first = second := by
  induction first generalizing second with
  | nil =>
    have hnil := h ""
    exact (List.map_eq_nil_iff.mp hnil.symm).symm
  | cons env rest ih =>
    cases second with
    | nil => exact absurd (h "") (by simp)
    | cons env' rest' =>
      have hcons key := List.cons.inj (h key)
      rw [ext_get? fun key => (hcons key).1, ih fun key => (hcons key).2]

/-- Variables can be set in either order. -/
theorem set_comm (env : Environment) {key other : String} (hne : key ≠ other)
    (value value' : String) :
    (env.set key value).set other value' = (env.set other value').set key value := by
  refine ext_get? fun name => ?_
  simp only [get?_set]
  by_cases hkey : name = key
  · have hother : name ≠ other := hkey ▸ hne
    rw [if_neg hother, if_pos hkey, if_pos hkey]
  · rw [if_neg hkey, if_neg hkey]

/-- Only changes that concern a variable matter for its value. -/
theorem get?_after_filter {env env' : Environment} {key : String}
    (h : env.get? key = env'.get? key) (changes : List Change) :
    (env.after changes).get? key =
      (env'.after (changes.filter (Change.concerns key))).get? key := by
  induction changes generalizing env env' with
  | nil => exact h
  | cons change rest ih =>
    rw [after_cons, List.filter_cons]
    cases hconcerns : change.concerns key with
    | true =>
      rw [if_pos rfl, after_cons]
      refine ih (Option.ext fun value => ?_)
      rw [get?_change_of_concerns hconcerns, get?_change_of_concerns hconcerns]
    | false =>
      rw [if_neg (by decide)]
      exact ih ((get?_change_of_not_concerns hconcerns env).trans h)

/-- The environment is the same if for each variable the changes that concern it are. -/
theorem after_eq_of_concerns (env : Environment) {first second : List Change}
    (h : ∀ key, first.filter (Change.concerns key) = second.filter (Change.concerns key)) :
    env.after first = env.after second := by
  refine ext_get? fun key => ?_
  rw [get?_after_filter rfl, h, ← get?_after_filter rfl]

/-- A value is lost when the variable is set again, whatever happens in between. -/
theorem set_after_set (env : Environment) (key old value : String) (between : List Change) :
    ((env.set key old).after between).set key value = (env.after between).set key value := by
  refine ext_get? fun name => ?_
  rw [get?_set, get?_set]
  by_cases hname : name = key
  · rw [if_pos hname, if_pos hname]
  · have hold : (env.set key old).get? name = env.get? name := by rw [get?_set, if_neg hname]
    rw [if_neg hname, if_neg hname, get?_after_filter hold, ← get?_after_filter rfl]

end Environment

/-! ## Restarts of a script -/

/-- Whether a directive matters for what restarts find in a variable. -/
def Directive.concerns (key : String) : Directive → Bool
  | .env name _ => name == key
  | .endSkip | .startSkip | .envClear | .restart => true
  | .ignored | .delay _ | .send _ => false

namespace Core

/-- Whether a line matters for what restarts find in a variable. -/
def concerns (key line : String) : Bool :=
  (Directive.classify line false).toOption.any (Directive.concerns key)

/-- The environments of the restarts that lines ask for. -/
def restarts (core : Core) (lines : List String) : List Environment :=
  (core.commands lines).filterMap Command.restart?

/-- Whether two states are the same as far as a variable goes. -/
structure AgreesOn (key : String) (core core' : Core) : Prop where
  /-- Both skip lines, or neither does. -/
  skipping : core.skipping = core'.skipping
  /-- The variable has the same value. -/
  value : core.env.get? key = core'.env.get? key

/-- States that agree on a variable take a line alike. -/
theorem AgreesOn.step {key : String} {core core' : Core} (h : AgreesOn key core core')
    (line : String) :
    AgreesOn key (core.step line).2 (core'.step line).2 ∧
      (core.step line).1.restart?.map (·.get? key) =
        (core'.step line).1.restart?.map (·.get? key) := by
  rw [Core.step, Core.step, ← h.skipping]
  cases Directive.classify line core.skipping with
  | error reason => exact ⟨h, rfl⟩
  | ok directive =>
    cases directive with
    | endSkip => exact ⟨⟨rfl, h.value⟩, rfl⟩
    | startSkip => exact ⟨⟨rfl, h.value⟩, rfl⟩
    | envClear => exact ⟨⟨h.skipping, rfl⟩, rfl⟩
    | env name value =>
      refine ⟨⟨h.skipping, ?_⟩, rfl⟩
      change (core.env.set name value).get? key = (core'.env.set name value).get? key
      rw [Environment.get?_set, Environment.get?_set, h.value]
    | restart => exact ⟨h, congrArg some h.value⟩
    | _ => exact ⟨h, rfl⟩

/-- A line that does not matter for a variable is no restart, and leaves the state as far as the
variable goes. -/
theorem step_of_not_concerns {key line : String} (h : concerns key line = false) (core : Core) :
    (core.step line).1.restart? = none ∧ AgreesOn key (core.step line).2 core := by
  cases hskip : core.skipping with
  | true =>
    have hend : Directive.beginsWith Directive.endSkipMarker line.toList = false := by
      rw [Bool.eq_false_iff]
      intro hmarker
      rw [concerns, Directive.classify, Directive.classifyChars, if_pos hmarker] at h
      cases h
    have hstep : core.step line = (.nothing, core) := by
      rw [step, Directive.classify, Directive.classifyChars, hend, hskip]
      rfl
    rw [hstep]
    exact ⟨rfl, rfl, rfl⟩
  | false =>
    rw [concerns] at h
    rw [step, hskip]
    cases hread : Directive.classify line false with
    | error reason => exact ⟨rfl, rfl, rfl⟩
    | ok directive =>
      rw [hread] at h
      cases directive with
      | env name value =>
        have hne : key ≠ name := fun heq => beq_eq_false_iff_ne.mp h heq.symm
        have hvalue : (core.env.set name value).get? key = core.env.get? key := by
          rw [Environment.get?_set, if_neg hne]
        exact ⟨rfl, rfl, hvalue⟩
      | ignored => exact ⟨rfl, rfl, rfl⟩
      | delay duration => exact ⟨rfl, rfl, rfl⟩
      | send text => exact ⟨rfl, rfl, rfl⟩
      | _ => cases h

/-- The restart at the first line comes first. -/
theorem restarts_cons (core : Core) (line : String) (rest : List String) :
    core.restarts (line :: rest) =
      (core.step line).1.restart?.toList ++ (core.step line).2.restarts rest := by
  rw [restarts, commands, List.filterMap_cons]
  cases (core.step line).1.restart? <;> rfl

/-- Only lines that matter for a variable decide what restarts find in it. -/
theorem map_get?_restarts {key : String} {core core' : Core} (h : AgreesOn key core core')
    (lines : List String) :
    (core.restarts lines).map (·.get? key) =
      (core'.restarts (lines.filter (concerns key))).map (·.get? key) := by
  induction lines generalizing core core' with
  | nil => rfl
  | cons line rest ih =>
    rw [restarts_cons, List.map_append, List.filter_cons]
    cases hconcerns : concerns key line with
    | true =>
      obtain ⟨hnext, hrestart⟩ := h.step line
      rw [if_pos rfl, restarts_cons, List.map_append, ih hnext, ← Option.toList_map,
        ← Option.toList_map, hrestart]
    | false =>
      obtain ⟨hnone, hleft⟩ := step_of_not_concerns hconcerns core
      have hnext : AgreesOn key (core.step line).2 core' :=
        ⟨hleft.skipping.trans h.skipping, hleft.value.trans h.value⟩
      rw [if_neg (by decide), hnone, ih hnext]
      rfl

/-- Restarts find the same if for each variable the lines that matter for it are the same. -/
theorem restarts_eq_of_concerns (core : Core) {first second : List String}
    (h : ∀ key, first.filter (concerns key) = second.filter (concerns key)) :
    core.restarts first = core.restarts second := by
  refine Environment.eq_of_map_get? fun key => ?_
  rw [map_get?_restarts ⟨rfl, rfl⟩, h, ← map_get?_restarts ⟨rfl, rfl⟩]

end Core

/-! ## What is listed and what is started -/

/-- Whether an entry of a listing is a restart. -/
def DryRunItem.isRestart : DryRunItem → Bool
  | .restart _ => true
  | _ => false

/-- The restarts that are listed for a script. -/
def DryRun.restarts (script : Script) : List DryRunItem :=
  ((listing script).map Prod.snd).filter DryRunItem.isRestart

/-- The environments that children are started with, whether the starts succeed or not. -/
def startedWith (events : List Event) : List Environment :=
  ((deliveries events).filterMap Delivery.start?).map Prod.fst

namespace DryRun

/-- A command is listed as a restart exactly if it is one. -/
theorem restart_item? (report : Report) (command : Command) :
    (item? report command).toList.filter DryRunItem.isRestart =
      command.restart?.toList.map DryRunItem.restart := by
  cases command with
  | send text =>
    rw [item?]
    cases report.restarts <;> rfl
  | _ => rfl

/-- The restarts that are listed are those that the lines ask for. -/
theorem restarts_walk (core : Core) (report : Report) (lines : List Line) :
    ((walk core report lines).1.map Prod.snd).filter DryRunItem.isRestart =
      (core.restarts (lines.map Line.text)).map DryRunItem.restart := by
  induction lines generalizing core report with
  | nil => rfl
  | cons line rest ih =>
    rw [walk, List.map_append, List.filter_append, ih, List.map_cons, Core.restarts_cons,
      List.map_append, ← restart_item? { report with lines := report.lines + 1 }]
    cases item? { report with lines := report.lines + 1 } (core.step line.text).1 <;> rfl

end DryRun

/-- Starts in a row. -/
theorem startedWith_append (first second : List Event) :
    startedWith (first ++ second) = startedWith first ++ startedWith second := by
  rw [startedWith, deliveries_append, List.filterMap_append, List.map_append]
  rfl

/-- Events that bring nothing to a child start none. -/
theorem startedWith_eq_nil {events : List Event} (h : deliveries events = []) :
    startedWith events = [] := by
  rw [startedWith, h]
  rfl

namespace Runner

variable {β σ : Type} {r : Runner β σ}

/-- A command starts a child if it is a restart, unless it stops before. -/
theorem Executed.startedWith_eq {line : Line} {command : Command} {books books' : Books}
    {events : List Event} {result : Except Halt Unit}
    (h : r.Executed line command books events result books') :
    startedWith events = command.restart?.toList ∨
      startedWith events = [] ∧ ∃ halt, result = .error halt := by
  cases h with
  | unended hended => exact .inr ⟨startedWith_eq_nil hended.deliveries_eq, _, rfl⟩
  | unstarted hended =>
    left
    rw [startedWith_append, startedWith_eq_nil hended.deliveries_eq]
    rfl
  | restarted hended =>
    left
    rw [startedWith_append, startedWith_eq_nil hended.deliveries_eq]
    rfl
  | sent _ hdrained =>
    have hrest := startedWith_eq_nil hdrained.deliveries_eq
    exact .inl hrest
  | _ => exact .inl rfl

/-- Lines start children for their restarts in turn, up to where they stop. -/
theorem Performed.startedWith_prefix {s s' : RunState β σ} {lines : List Line}
    {events : List Event} {result : Except Halt Unit}
    (h : r.Performed s lines events result s') :
    startedWith events <+: s.core.restarts (lines.map Line.text) ∧
      (result = .ok () → startedWith events = s.core.restarts (lines.map Line.text)) := by
  induction h with
  | nil => exact ⟨List.prefix_refl _, fun _ => rfl⟩
  | @stopped s line rest events halt s' hline =>
    rw [List.map_cons, Core.restarts_cons]
    refine ⟨?_, nofun⟩
    rcases hline.rule.startedWith_eq with hstarted | ⟨hstarted, -⟩
    · exact hstarted ▸ List.prefix_append _ _
    · exact hstarted ▸ List.nil_prefix
  | @cons s line rest events events' result s₁ s₂ hline _ ih =>
    have hcore : s₁.core = (s.core.step line.text).2 := hline.rule.core_eq
    have hstarted : startedWith events = (s.core.step line.text).1.restart?.toList := by
      rcases hline.rule.startedWith_eq with hstarted | ⟨-, _, hstop⟩
      · exact hstarted
      · cases hstop
    rw [hcore] at ih
    rw [List.map_cons, Core.restarts_cons, startedWith_append, hstarted]
    exact ⟨(List.prefix_append_right_inj _).mpr ih.1, fun hdone => congrArg _ (ih.2 hdone)⟩

end Runner

namespace Script

/-- The lines of a script that matter for what restarts find in a variable. -/
def concerning (script : Script) (key : String) : List String :=
  (script.lines.map Line.text).filter (Core.concerns key)

/-- Whether every run of a script from a state starts children with these environments in turn,
as far as it comes, and with all of them if it carries out all lines, as it does when it is
finished. -/
def StartsWith (script : Script) (core : Core) (envs : List Environment) : Prop :=
  ∀ (β σ : Type) (r : Runner β σ) (s : RunState β σ), s.core = core →
    ∃ given, given <+: envs ∧
      startedWith (r.run script s).2.events = startedWith s.events ++ given ∧
      (r.CarriesOut s script.lines → given = envs) ∧
      ∀ report, (r.run script s).1 = .finished report → r.CarriesOut s script.lines

/-- The environments of a script's starts are those of its restarts. -/
theorem startsWith_restarts (script : Script) (core : Core) :
    script.StartsWith core (core.restarts (script.lines.map Line.text)) := by
  rintro β σ r s rfl
  rcases hrun : r.run script s with ⟨outcome, t⟩
  obtain ⟨events, hevents, -, hran⟩ := Runner.ran_of_run hrun
  obtain ⟨work, result, s₁, hworked⟩ := hran.worked
  obtain ⟨hgiven, hall⟩ := hworked.performed.startedWith_prefix
  have hends := hworked.performed.does.ends
  refine ⟨startedWith work, hgiven, ?_, ?_, fun report hreport => ?_⟩
  · rw [hevents, startedWith_append, startedWith, startedWith, hworked.delivered]
    rfl
  · rintro ⟨s₂, hdone⟩
    exact hall (congrArg Prod.fst (hends.symm.trans hdone))
  · rw [hworked.finished report hreport] at hends
    exact ⟨s₁, hends⟩

end Script

namespace Environment

/-- After any changes an environment lists the last value of each variable, by name. Environments
are equal exactly if every variable has the same value in both. So variables can be set in either
order, a value is lost when its variable is set again, and of any changes only the order of those
that concern the same variable matters. Scripts that differ in the order in which they set
different variables, or in lines that matter for no variable, list the same at their restarts, and
their runs start children with the same environments in turn. -/
theorem after_canonical :
    (∀ changes, (empty.after changes).IsLeftBy changes) ∧
      (∀ first second, empty.after first = empty.after second ↔
        ∀ key, (empty.after first).get? key = (empty.after second).get? key) ∧
      (∀ (env : Environment) (key other value value' : String), key ≠ other →
        (env.set key value).set other value' = (env.set other value').set key value) ∧
      (∀ (env : Environment) (key old value : String) (between : List Change),
        ((env.set key old).after between).set key value = (env.after between).set key value) ∧
      (∀ (env : Environment) (first second : List Change),
        (∀ key, first.filter (Change.concerns key) = second.filter (Change.concerns key)) →
        env.after first = env.after second) ∧
      ∀ first second : Script, (∀ key, first.concerning key = second.concerning key) →
        DryRun.restarts first = DryRun.restarts second ∧
        ∀ core : Core, ∃ envs, first.StartsWith core envs ∧ second.StartsWith core envs := by
  refine ⟨isLeftBy_after, fun first second => ?_, fun env key other value value' hne => ?_,
    set_after_set, fun env first second => env.after_eq_of_concerns, fun first second h => ?_⟩
  · exact ⟨fun heq _ => heq ▸ rfl, ext_get?⟩
  · exact env.set_comm hne value value'
  · have hrestarts (core : Core) : core.restarts (first.lines.map Line.text) =
        core.restarts (second.lines.map Line.text) := core.restarts_eq_of_concerns h
    refine ⟨?_, fun core => ⟨_, first.startsWith_restarts core, ?_⟩⟩
    · rw [DryRun.restarts, DryRun.restarts, DryRun.listing, DryRun.listing, DryRun.restarts_walk,
        DryRun.restarts_walk, hrestarts]
    · rw [hrestarts]
      exact second.startsWith_restarts core

/-- Two variables that are set in either order, with a line for the child between them. -/
theorem after_canonical_of_mixed_lines :
    ∃ first second : Script,
      first.lines.map Line.text = ["ENV b 2", "ENV A 1", "RESTART"] ∧
      second.lines.map Line.text = ["ENV A 1", "hello", "ENV b 2", "RESTART"] ∧
      (∀ key, first.concerning key = second.concerning key) ∧
      DryRun.restarts first = DryRun.restarts second ∧
      (DryRun.restarts first).map DryRunItem.text = ["RESTART env [A=1, b=2]"] ∧
      (∃ envs, first.StartsWith {} envs ∧ second.StartsWith {} envs) ∧
      "b" ≠ "A" ∧ (empty.set "b" "2").set "A" "1" = (empty.set "A" "1").set "b" "2" := by
  let first : Script := ⟨"/", [⟨1, "ENV b 2"⟩, ⟨2, "ENV A 1"⟩, ⟨3, "RESTART"⟩], none⟩
  let second : Script :=
    ⟨"/", [⟨1, "ENV A 1"⟩, ⟨2, "hello"⟩, ⟨3, "ENV b 2"⟩, ⟨4, "RESTART"⟩], none⟩
  have hne : "b" ≠ "A" := by decide
  have hconcerning (key : String) : first.concerning key = second.concerning key := by
    have hset : Core.concerns key "ENV b 2" = ("b" == key) ∧
        Core.concerns key "ENV A 1" = ("A" == key) := ⟨rfl, rfl⟩
    have hfixed : Core.concerns key "RESTART" = true ∧ Core.concerns key "hello" = false :=
      ⟨rfl, rfl⟩
    have hother : ¬(("b" == key) = true ∧ ("A" == key) = true) := by
      rw [beq_iff_eq, beq_iff_eq]
      rintro ⟨rfl, h⟩
      exact hne h.symm
    simp only [Script.concerning, first, second, List.map_cons, List.map_nil, List.filter_cons,
      List.filter_nil, hset, hfixed]
    cases hb : "b" == key <;> cases hA : "A" == key <;> simp_all
  obtain ⟨-, -, hcomm, -, -, hscripts⟩ := after_canonical
  obtain ⟨hlisted, hstarted⟩ := hscripts first second hconcerning
  exact ⟨first, second, rfl, rfl, hconcerning, hlisted, by decide +kernel, hstarted {}, hne,
    hcomm empty "b" "A" "2" "1" hne⟩

end Environment

end LineScript
