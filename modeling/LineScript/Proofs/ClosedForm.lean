import Mathlib.Data.List.DropRight
import LineScript.Proofs.Delivery
import LineScript.Proofs.Grammar

/-!
# The state of a script in closed form

The state is carried from line to line. What it is after some lines can also be read off these
lines at once: the flag off the lines since the last end of a skipped block, and the value of a
variable off the directives since all variables were last forgotten. Main result: at every
place of a script the state is the one read off the lines before it, and a restart carries it.
-/

namespace LineScript

/-- What stands behind the last element with a property, and everything if there is none. -/
def sinceLast {α : Type} (property : α → Bool) (list : List α) : List α :=
  list.rtakeWhile fun element => !property element

/-- An element with the property has nothing behind it; every other one stands behind what
stood there before. -/
theorem sinceLast_concat {α : Type} (property : α → Bool) (list : List α) (element : α) :
    sinceLast property (list ++ [element]) =
      if property element then [] else sinceLast property list ++ [element] := by
  rw [sinceLast, List.rtakeWhile_concat, sinceLast]
  cases property element <;> rfl

namespace Directive

/-- The value that a directive gives to a variable. -/
def value? (key : String) : Directive → Option String
  | .env name value => if key = name then some value else none
  | _ => none

end Directive

namespace Core

/-- Whether a line ends a skipped block. -/
def endsSkip (line : String) : Bool := Directive.beginsWith Directive.endSkipMarker line.toList

/-- Whether a line begins a skipped block. -/
def startsSkip (line : String) : Bool := Directive.beginsWith Directive.startSkipMarker line.toList

/-- Whether lines are being skipped after some lines: whether a block began since the last end
of one. -/
def skips (lines : List String) : Bool := (sinceLast endsSkip lines).any startsSkip

/-- The directives of those lines that are not skipped and can be read, with the lines that
came before them. -/
def effectiveFrom (before : List String) : List String → List Directive
  | [] => []
  | line :: rest =>
    (if skips before then none else (Directive.classify line false).toOption).toList ++
      effectiveFrom (before ++ [line]) rest

/-- The directives of those lines that are not skipped and can be read. -/
def effective (lines : List String) : List Directive := effectiveFrom [] lines

/-- The value that a variable was last given since all variables were last forgotten. -/
def lastValue (key : String) (directives : List Directive) : Option String :=
  (sinceLast (· == .envClear) directives).reverse.findSome? (Directive.value? key)

/-- One more line is skipped or not by what came before it. -/
theorem skips_concat (lines : List String) (line : String) :
    skips (lines ++ [line]) = if endsSkip line then false else skips lines || startsSkip line := by
  rw [skips, sinceLast_concat]
  cases endsSkip line with
  | true => rfl
  | false => exact List.any_append.trans (by rw [List.any_cons, List.any_nil, Bool.or_false]; rfl)

/-- One more line adds its directive, unless it is skipped or cannot be read. -/
theorem effectiveFrom_concat (before lines : List String) (line : String) :
    effectiveFrom before (lines ++ [line]) = effectiveFrom before lines ++
      (if skips (before ++ lines) then none
        else (Directive.classify line false).toOption).toList := by
  induction lines generalizing before with
  | nil => simp only [List.nil_append, effectiveFrom, List.append_nil]
  | cons first rest ih =>
    rw [List.cons_append, effectiveFrom, effectiveFrom, ih, List.append_assoc, List.append_assoc,
      List.singleton_append]

/-- One more directive gives a value, forgets all values or leaves them. -/
theorem lastValue_concat (key : String) (directives : List Directive) (directive : Directive) :
    lastValue key (directives ++ [directive]) =
      if directive = .envClear then none
      else (directive.value? key).or (lastValue key directives) := by
  rw [lastValue, sinceLast_concat]
  by_cases h : directive = .envClear
  · rw [if_pos (beq_iff_eq.mpr h), if_pos h]
    rfl
  · rw [if_neg (by simpa using h), if_neg h, List.reverse_append, List.reverse_singleton,
      List.singleton_append, List.findSome?_cons]
    cases directive.value? key <;> rfl

/-- Outside a skipped block a line begins one exactly if it has the marker, and not that of the
end of a block. -/
theorem classify_eq_startSkip_iff (line : String) :
    Directive.classify line false = .ok .startSkip ↔
      endsSkip line = false ∧ startsSkip line = true := by
  obtain ⟨hend, hignored, hstart⟩ := Directive.classifyChars_marked line.toList
  constructor
  · intro hread
    rw [Directive.classify] at hread
    have hnoend : endsSkip line = false := by
      rw [endsSkip, Bool.eq_false_iff]
      intro hmarker
      rw [hend (Directive.beginsWith_iff.mp hmarker)] at hread
      cases hread
    refine ⟨hnoend, ?_⟩
    rw [Directive.classifyChars] at hread
    split_ifs at hread with hmarker hquiet hbegin
    · cases hread
    · cases hread
    · exact hbegin
    · rcases Directive.ofWords_ok hread with ⟨_, _, _, h, _⟩ | h | h | ⟨_, h, _⟩ | h <;> cases h
  · rintro ⟨hnoend, hmarker⟩
    have hbegin : Directive.startSkipMarker.toList <+: line.toList :=
      Directive.beginsWith_iff.mp hmarker
    obtain ⟨behind, hline⟩ := hbegin
    have hhead : line.toList.head? = some 'S' := by rw [← hline]; rfl
    refine hstart (fun hmarked => ?_) (fun hnil => ?_) ?_ ⟨behind, hline⟩
    · exact Bool.eq_false_iff.mp hnoend (Directive.beginsWith_iff.mpr hmarked)
    · rw [hnil] at hhead
      cases hhead
    · rw [hhead]
      decide

/-- In a skipped block a line changes nothing, unless it ends the block. -/
theorem step_of_skipping {core : Core} (h : core.skipping = true) (line : String) :
    (core.step line).2 = { core with skipping := !endsSkip line } := by
  have hread : Directive.classify line core.skipping =
      .ok (if endsSkip line then .endSkip else .ignored) := by
    rw [h, Directive.classify, Directive.classifyChars, endsSkip]
    split_ifs with _ hquiet
    · rfl
    · rfl
    · exact absurd rfl hquiet
    · exact absurd rfl hquiet
  rw [step, hread]
  cases endsSkip line with
  | true => rfl
  | false => exact congrArg (Core.mk core.env) h

/-- Outside a skipped block a line does what its directive does, and nothing if it cannot be
read. -/
theorem step_of_not_skipping {core : Core} (h : core.skipping = false) (line : String) :
    (core.step line).2 = (Directive.classify line false).toOption.elim core
      fun directive => (core.perform directive).2 := by
  rw [step, h]
  cases Directive.classify line false <;> rfl

/-- A step leaves the flag to the markers. -/
theorem step_skipping (core : Core) (line : String) :
    (core.step line).2.skipping =
      if endsSkip line then false else core.skipping || startsSkip line := by
  cases h : core.skipping with
  | true =>
    rw [step_of_skipping h]
    cases endsSkip line <;> rfl
  | false =>
    have hmarker := classify_eq_startSkip_iff line
    have hbegins : (core.step line).2.skipping = true ↔
        Directive.classify line false = .ok .startSkip := by
      rw [step_of_not_skipping h]
      cases Directive.classify line false with
      | error reason => simp [Except.toOption, h]
      | ok directive => cases directive <;> simp [Except.toOption, perform, h]
    rw [Bool.eq_iff_iff, hbegins, hmarker]
    cases endsSkip line <;> simp

/-- A directive gives a variable a value, forgets all values or leaves them. -/
theorem get?_perform (core : Core) (directive : Directive) (key : String) :
    (core.perform directive).2.env.get? key =
      if directive = .envClear then none
      else (directive.value? key).or (core.env.get? key) := by
  cases directive with
  | env name value =>
    rw [perform, if_neg (by nofun), Directive.value?, Environment.get?_set]
    split <;> rfl
  | envClear => rfl
  | _ => exact (if_neg (by nofun)).symm

/-- The state after some lines, read off these lines at once. -/
structure ReadOff (lines : List String) (core : Core) : Prop where
  /-- Lines are skipped if a block began since the last end of one. -/
  skipping : core.skipping = skips lines
  /-- A variable has the value that it was last given since all were last forgotten. -/
  value : ∀ key, core.env.get? key = lastValue key (effective lines)

/-- One more step keeps the state the one that is read off the lines. -/
theorem ReadOff.step {lines : List String} {core : Core} (h : ReadOff lines core) (line : String) :
    ReadOff (lines ++ [line]) (core.step line).2 := by
  refine ⟨?_, fun key => ?_⟩
  · rw [step_skipping, skips_concat, h.skipping]
  · rw [effective, effectiveFrom_concat, List.nil_append, ← h.skipping]
    cases hskip : core.skipping with
    | true =>
      rw [step_of_skipping hskip, if_pos rfl, Option.toList_none, List.append_nil]
      exact h.value key
    | false =>
      rw [step_of_not_skipping hskip, if_neg (by decide)]
      cases (Directive.classify line false).toOption with
      | none =>
        rw [Option.toList_none, List.append_nil]
        exact h.value key
      | some directive =>
        rw [Option.toList_some, lastValue_concat, Option.elim_some, get?_perform, h.value key]
        rfl

/-- The state after some lines is the one that is read off them. -/
theorem readOff_after (lines : List String) : ReadOff lines (after {} lines) := by
  induction lines using List.reverseRecOn with
  | nil => exact ⟨rfl, fun _ => rfl⟩
  | append_singleton lines line ih =>
    rw [after, List.foldl_concat]
    exact ih.step line

/-- A restart is given the variables as they are, and a directive that cannot be used changes
nothing. -/
theorem step_command (core : Core) (line : String) :
    (∀ env, (core.step line).1 = .restart env → env = core.env) ∧
      ∀ reason, (core.step line).1 = .malformed reason → (core.step line).2 = core := by
  rw [step]
  cases Directive.classify line core.skipping with
  | error reason =>
    refine ⟨fun _ hcommand => ?_, fun _ _ => rfl⟩
    cases hcommand
  | ok directive =>
    cases directive with
    | restart =>
      refine ⟨fun _ hcommand => (Command.restart.inj hcommand).symm, fun _ hcommand => ?_⟩
      cases hcommand
    | _ => constructor <;> (intro _ hcommand; cases hcommand)

/-- The command at a place is the one of the step from the state before it. -/
theorem getElem?_commands (core : Core) (lines : List String) (n : Nat) :
    (core.commands lines)[n]? =
      lines[n]?.map fun line => ((core.after (lines.take n)).step line).1 := by
  induction lines generalizing core n with
  | nil => rfl
  | cons line rest ih =>
    cases n with
    | zero => rfl
    | succ n => exact ih (core.step line).2 n

/-- A command of lines is that of the step at one of them. -/
theorem exists_step_of_mem_commands {core : Core} {lines : List String} {command : Command}
    (h : command ∈ core.commands lines) :
    ∃ before line, line ∈ lines ∧ ((core.after before).step line).1 = command := by
  obtain ⟨n, hn⟩ := List.mem_iff_getElem?.mp h
  rw [getElem?_commands] at hn
  obtain ⟨line, hline, hstep⟩ := Option.map_eq_some_iff.mp hn
  exact ⟨lines.take n, line, List.mem_of_getElem? hline, hstep⟩

/-- At every place of a script the state is read off the lines before it: whether lines are
skipped, and the value of every variable. A restart there is given these variables, whatever
lines follow, and a directive that cannot be used leaves the state as it is. -/
theorem closed_form (lines : List String) (n : Nat) :
    ReadOff (lines.take n) (after {} (lines.take n)) ∧
      (∀ env, (commands {} lines)[n]? = some (.restart env) →
        env = (after {} (lines.take n)).env ∧
          ∀ key, env.get? key = lastValue key (effective (lines.take n))) ∧
      ∀ reason, (commands {} lines)[n]? = some (.malformed reason) →
        after {} (lines.take (n + 1)) = after {} (lines.take n) := by
  have hread : ReadOff (lines.take n) (after {} (lines.take n)) := readOff_after (lines.take n)
  rw [getElem?_commands]
  cases hline : lines[n]? with
  | none => exact ⟨hread, nofun, nofun⟩
  | some line =>
    obtain ⟨hrestart, hmalformed⟩ := step_command (after {} (lines.take n)) line
    refine ⟨hread, fun env hcommand => ?_, fun reason hcommand => ?_⟩
    · have henv : env = (after {} (lines.take n)).env := hrestart env (Option.some.inj hcommand)
      exact ⟨henv, henv ▸ hread.value⟩
    · have htake : lines.take (n + 1) = lines.take n ++ [line] := by
        rw [List.take_add_one, hline, Option.toList_some]
      rw [htake, after, List.foldl_concat]
      exact hmalformed reason (Option.some.inj hcommand)

/-- A clearing in a skipped block does not count, and an end of a block that never began does
no harm. -/
example : skips ["END_SKIP", "ENV A 1", "START_SKIP", "START_SKIP", "ENVCLEAR"] = true ∧
    lastValue "A" (effective ["END_SKIP", "ENV A 1", "START_SKIP", "START_SKIP", "ENVCLEAR"]) =
      some "1" := by
  decide +kernel

end Core

end LineScript
