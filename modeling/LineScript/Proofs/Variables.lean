import Mathlib.Data.List.TakeDrop
import Mathlib.Data.List.TakeWhile
import LineScript.FileTree.System
import LineScript.Host.Processes
import LineScript.Proofs.ClosedForm
import LineScript.Proofs.Utf8

/-!
# The variables of a process

A process is told its variables as entries, each a name, an equals sign and a value in one text, and
a program cuts an entry at the first equals sign. A script may set a name that has an equals sign in
it; of such an entry a program makes a shorter name and a longer value. Main result: whenever a
restart of a script starts a process, the process is told the variables of the environment as it
stands at that line, one entry for each. The program finds just these variables in the entries
exactly if no name has an equals sign, and it never finds a name that has one.
-/

namespace LineScript

/-- A text with an equals sign has a first one. -/
theorem exists_equals {text : String} (h : '=' ∈ text.toList) :
    ∃ name rest, text = name ++ "=" ++ rest ∧ '=' ∉ name.toList := by
  obtain ⟨name, rest, htext, hname⟩ := List.eq_append_cons_of_mem h
  refine ⟨String.ofList name, String.ofList rest, ?_, by rwa [String.toList_ofList]⟩
  rw [← String.toList_inj, htext]
  simp

namespace Machine

/-! ## Spelled texts -/

/-- Texts in a row are spelled in a row. -/
theorem spell_append (first second : String) :
    spell (first ++ second) = spell first ++ spell second := by
  rw [← String.toList_inj, spell, spell, spell, Utf8.ofString_eq_encode, String.toList_append,
    Utf8.encode_append, ← Utf8.ofString_eq_encode, ← Utf8.ofString_eq_encode]
  simp [spellBytes]

/-- The equals sign is spelled as itself. -/
theorem spell_equals : spell "=" = "=" := by decide +kernel

/-- Different texts are spelled differently. -/
theorem spell_injective {a b : String} (h : spell a = spell b) : a = b := by
  have hbytes := congrArg bytesOf h
  rw [spell, spell, bytesOf_spellBytes, bytesOf_spellBytes] at hbytes
  exact Utf8.ofString_injective hbytes

/-- A spelled text has no equals sign if the text has none. -/
theorem equals_not_mem_spell {text : String} (h : '=' ∉ text.toList) :
    '=' ∉ (spell text).toList := by
  intro hmem
  rw [spell, spellBytes, String.toList_ofList, Utf8.ofString_eq_encode] at hmem
  obtain ⟨b, hb, hchar⟩ := List.mem_map.mp hmem
  have hcode : b.toNat = 0x3D := by
    rw [← toNat_charOf b, hchar]
    rfl
  obtain ⟨c, hc, hencoded⟩ := List.mem_flatMap.mp hb
  have heq : c = '=' := by
    rw [Utf8.mem_encodeChar (by omega) hencoded, hchar]
  exact h (heq ▸ hc)

/-- A name and a value, spelled. -/
def spellBinding (binding : String × String) : String × String :=
  (spell binding.1, spell binding.2)

namespace Program

/-! ## Entries -/

/-- The name and the value in an entry, which is cut at its first equals sign. -/
def cut? (entry : String) : Option (String × String) :=
  match entry.toList.span (· ≠ '=') with
  | (name, _ :: value) => some (String.ofList name, String.ofList value)
  | _ => none

/-- The names and values that a program finds in entries. -/
def bindingsOf (entries : List String) : List (String × String) := entries.filterMap cut?

/-- A program looks a name up among the variables that it finds. -/
theorem valueOf?_eq_lookup (entries : List String) (name : String) :
    valueOf? entries name = (bindingsOf entries).lookup name := by
  induction entries with
  | nil => rfl
  | cons entry rest ih =>
    rw [valueOf?, List.findSome?_cons, bindingsOf, List.filterMap_cons, cut?]
    rw [valueOf?] at ih
    rcases entry.toList.span (· ≠ '=') with ⟨key, _ | ⟨_, value⟩⟩
    · exact ih
    · dsimp only
      rw [Environment.lookup_entry]
      by_cases hkey : String.ofList key = name
      · rw [if_pos hkey, if_pos hkey.symm]
      · rw [if_neg hkey, if_neg (Ne.symm hkey)]
        exact ih

/-- What stands before the first equals sign is the name, and what stands behind it is the value. -/
theorem cut?_of_not_mem {name : String} (h : '=' ∉ name.toList) (value : String) :
    cut? (name ++ "=" ++ value) = some (name, value) := by
  have hname : ∀ c ∈ name.toList, decide (c ≠ '=') = true :=
    fun c hc => decide_eq_true fun heq => h (heq ▸ hc)
  have hspan : (name ++ "=" ++ value).toList.span (· ≠ '=') =
      (name.toList, '=' :: value.toList) := by
    have htext : (name ++ "=" ++ value).toList = name.toList ++ '=' :: value.toList := by simp
    rw [htext, List.span_eq_takeWhile_dropWhile, List.takeWhile_append_of_pos hname,
      List.dropWhile_append_of_pos hname]
    simp
  rw [cut?, hspan]
  simp

/-- A text without an equals sign cannot be cut. -/
theorem cut?_eq_none {text : String} (h : '=' ∉ text.toList) : cut? text = none := by
  have hall : ∀ c ∈ text.toList, decide (c ≠ '=') = true :=
    fun c hc => decide_eq_true fun heq => h (heq ▸ hc)
  have hdrop : text.toList.dropWhile (· ≠ '=') = [] := List.dropWhile_eq_nil_iff.mpr hall
  rw [cut?, List.span_eq_takeWhile_dropWhile, hdrop]

/-- The name that a program finds in an entry has no equals sign. -/
theorem not_mem_of_cut? {entry name value : String} (h : cut? entry = some (name, value)) :
    '=' ∉ name.toList := by
  by_cases hmem : '=' ∈ entry.toList
  · obtain ⟨before, after, rfl, hbefore⟩ := exists_equals hmem
    rw [cut?_of_not_mem hbefore] at h
    cases h
    exact hbefore
  · rw [cut?_eq_none hmem] at h
    cases h

end Program

end Machine

namespace Environment

open Machine (spell spellBinding)
open Machine.Program (cut? bindingsOf valueOf?)

/-- The name and the value that a program finds for a binding: the name goes up to its first equals
sign, and the rest of it belongs to the value. -/
def found (binding : String × String) : String × String :=
  match cut? binding.1 with
  | some (name, rest) => (name, rest ++ "=" ++ binding.2)
  | none => binding

/-- A binding is found as it is exactly if its name has no equals sign. -/
theorem found_eq_iff (binding : String × String) :
    found binding = binding ↔ '=' ∉ binding.1.toList := by
  obtain ⟨name, value⟩ := binding
  constructor
  · intro h hmem
    obtain ⟨before, after, rfl, hbefore⟩ := exists_equals hmem
    rw [found, Machine.Program.cut?_of_not_mem hbefore] at h
    have hname : before = before ++ "=" ++ after := congrArg Prod.fst h
    exact hbefore (hname ▸ hmem)
  · intro h
    rw [found, Machine.Program.cut?_eq_none h]

/-- The entry for a binding is cut into what is found for the binding. -/
theorem cut?_entry (binding : String × String) :
    cut? (spell (binding.1 ++ "=" ++ binding.2)) = some (spellBinding (found binding)) := by
  have hcut {name : String} (h : '=' ∉ name.toList) (value : String) :
      cut? (spell (name ++ "=" ++ value)) = some (spellBinding (name, value)) := by
    rw [Machine.spell_append, Machine.spell_append, Machine.spell_equals]
    exact Machine.Program.cut?_of_not_mem (Machine.equals_not_mem_spell h) _
  obtain ⟨name, value⟩ := binding
  by_cases hmem : '=' ∈ name.toList
  · obtain ⟨before, after, rfl, hbefore⟩ := exists_equals hmem
    rw [found, Machine.Program.cut?_of_not_mem hbefore]
    -- The first equals sign of the entry stands inside the name.
    have hentry : before ++ "=" ++ after ++ "=" ++ value =
        before ++ "=" ++ (after ++ "=" ++ value) := by
      simp only [String.append_assoc]
    dsimp only
    rw [hentry]
    exact hcut hbefore _
  · rw [found, Machine.Program.cut?_eq_none hmem]
    exact hcut hmem value

/-- What a program finds in the entries of an environment. -/
theorem bindingsOf_assignments (env : Environment) :
    bindingsOf (env.assignments.map spell) =
      env.entries.map fun binding => spellBinding (found binding) := by
  have hcut : cut? ∘ (spell ∘ fun binding => binding.1 ++ "=" ++ binding.2) =
      some ∘ fun binding => spellBinding (found binding) := funext cut?_entry
  rw [bindingsOf, assignments, List.map_map, List.filterMap_map, hcut, List.filterMap_eq_map]

/-- Looking up in spelled bindings is looking up a name that is spelled so. -/
theorem lookup_spelled (entries : List (String × String)) (name value : String) :
    (entries.map spellBinding).lookup name = some value ↔
      ∃ text content, entries.lookup text = some content ∧ name = spell text ∧
        value = spell content := by
  induction entries with
  | nil =>
    constructor
    · nofun
    · rintro ⟨text, content, h, -⟩
      cases h
  | cons entry rest ih =>
    rw [List.map_cons, lookup_entry]
    by_cases hname : name = spell entry.1
    · rw [if_pos (show name = (spellBinding entry).1 from hname)]
      constructor
      · intro h
        cases h
        exact ⟨entry.1, entry.2, by rw [lookup_entry, if_pos rfl], hname, rfl⟩
      · rintro ⟨text, content, hlookup, htext, rfl⟩
        have heq : text = entry.1 := Machine.spell_injective (htext.symm.trans hname)
        rw [lookup_entry, if_pos heq] at hlookup
        cases hlookup
        rfl
    · rw [if_neg (show name ≠ (spellBinding entry).1 from hname), ih]
      refine exists_congr fun text => exists_congr fun content => and_congr_left fun h => ?_
      have hne : text ≠ entry.1 := fun heq => hname (heq ▸ h.1)
      rw [lookup_entry, if_neg hne]

/-- A binding of an environment is the value of its name. -/
theorem get?_of_mem {env : Environment} {binding : String × String} (h : binding ∈ env.entries) :
    env.get? binding.1 = some binding.2 := get?_eq_some_iff.mpr h

/-- Whether a program that is told entries finds just the variables of an environment. -/
structure IsSeenIn (env : Environment) (entries : List String) : Prop where
  /-- Cut at the first equals sign, the entries are the bindings. -/
  bindings : bindingsOf entries = env.entries.map spellBinding
  /-- A name has a value for the program exactly if it has this value in the environment. -/
  values : ∀ name value, valueOf? entries name = some value ↔
    ∃ text content, env.get? text = some content ∧ name = spell text ∧ value = spell content

/-- What a process is told of an environment, and what becomes of it. -/
structure IsToldBy (env : Environment) (entries : List String) : Prop where
  /-- There is one entry for each binding, with its name, an equals sign and its value. -/
  entries_eq : entries = env.entries.map fun binding => spell (binding.1 ++ "=" ++ binding.2)
  /-- Cut at the first equals sign, each entry is what is found for its binding. -/
  bindings_eq : bindingsOf entries = env.entries.map fun binding => spellBinding (found binding)
  /-- The program finds just the variables of the environment exactly if no name has an equals
  sign. -/
  seen_iff : env.IsSeenIn entries ↔ ∀ binding ∈ env.entries, '=' ∉ binding.1.toList
  /-- A name with an equals sign has no value for the program. -/
  lost : ∀ name, '=' ∈ name.toList → valueOf? entries name = none

/-- No program finds a name with an equals sign. -/
theorem valueOf?_eq_none (entries : List String) {name : String} (h : '=' ∈ name.toList) :
    valueOf? entries name = none := by
  rw [Machine.Program.valueOf?_eq_lookup, List.lookup_eq_none_iff]
  rintro ⟨other, value⟩ hmem
  obtain ⟨entry, -, hcut⟩ := List.mem_filterMap.mp hmem
  refine bne_iff_ne.mpr fun heq => ?_
  have hother : name = other := heq
  exact Machine.Program.not_mem_of_cut? hcut (hother ▸ h)

/-- Names without equals signs are found with their values. -/
theorem isSeenIn_assignments {env : Environment}
    (h : ∀ binding ∈ env.entries, '=' ∉ binding.1.toList) :
    env.IsSeenIn (env.assignments.map spell) := by
  have hbindings : bindingsOf (env.assignments.map spell) = env.entries.map spellBinding := by
    rw [bindingsOf_assignments]
    exact List.map_congr_left fun binding hmem =>
      congrArg spellBinding ((found_eq_iff binding).mpr (h binding hmem))
  refine ⟨hbindings, fun name value => ?_⟩
  rw [Machine.Program.valueOf?_eq_lookup, hbindings]
  exact lookup_spelled env.entries name value

/-- The entries of an environment tell its variables. -/
theorem isToldBy_assignments (env : Environment) :
    env.IsToldBy (env.assignments.map spell) where
  entries_eq := by rw [assignments, List.map_map]; rfl
  bindings_eq := bindingsOf_assignments env
  seen_iff := by
    refine ⟨fun hseen binding hmem hequals => ?_, isSeenIn_assignments⟩
    have hvalue := (hseen.values (spell binding.1) (spell binding.2)).mpr
      ⟨_, _, get?_of_mem hmem, rfl, rfl⟩
    have hspelled : '=' ∈ (spell binding.1).toList := by
      obtain ⟨before, after, hname, -⟩ := exists_equals hequals
      rw [hname, Machine.spell_append, Machine.spell_append, Machine.spell_equals]
      simp
    rw [valueOf?_eq_none _ hspelled] at hvalue
    cases hvalue
  lost _ := valueOf?_eq_none _

end Environment

namespace Machine

/-- A process in a new state is found under its number, if there was one before. -/
theorem process?_update {m : Machine} {p : Process}
    (h : ∃ old ∈ m.processes, old.number = p.number) :
    (m.update p).process? p.number = some p := by
  obtain ⟨old, hmem, hnumber⟩ := h
  have hsome : ((m.update p).process? p.number).isSome = true := by
    rw [process?, List.find?_isSome, update]
    exact ⟨p, List.mem_map.mpr ⟨old, hmem, if_pos hnumber⟩, decide_eq_true rfl⟩
  obtain ⟨q, hq⟩ := Option.isSome_iff_exists.mp hsome
  rw [hq]
  -- Whatever has the number after the update is the new state.
  rw [process?] at hq
  have hfound := List.find?_some hq
  have hsame : q.number = p.number := of_decide_eq_true hfound
  obtain ⟨before, -, rfl⟩ := List.mem_map.mp (List.mem_of_find?_eq_some hq)
  split at hsame
  · next heq => rw [if_pos heq]
  · next hne => exact absurd hsame hne

/-- Whether a process is about to run a program that is told entries. -/
structure Process.Begins (p : Process) (files : FileTree) (directory : Location) (name : String)
    (arguments entries : List String) : Prop where
  /-- It has not ended. -/
  running : p.ending = none
  /-- It is in the first state of the program, which is searched for where the entries say. -/
  task : ∃ program, Program.find files directory name arguments
      ((Program.valueOf? entries "PATH").getD Program.usualSearch) = .ok program ∧
    p.task = Task.start program.utility program.arguments entries p.number
      (spell (FileTree.render directory))

/-- A process that becomes another program is about to run it. -/
theorem become_begins {m m' : Machine} {p : Process} {name : String}
    {arguments entries : List String} (hmem : p ∈ m.processes) (hrunning : p.ending = none)
    (h : m.become p name arguments entries none = .ok m') :
    ∃ q, m'.process? p.number = some q ∧
      q.Begins m'.files p.directory name arguments entries := by
  rw [become, Option.getD_none] at h
  cases hfind : Program.find m.files p.directory name arguments
      ((Program.valueOf? entries "PATH").getD Program.usualSearch) with
  | error failure =>
    rw [hfind] at h
    cases h
  | ok program =>
    rw [hfind] at h
    obtain rfl : m.update { p with
      task := Task.start program.utility program.arguments entries p.number
        (spell (FileTree.render p.directory))
      kept := [] } = m' := Except.ok.inj h
    exact ⟨_, process?_update ⟨p, hmem, rfl⟩, hrunning, program, hfind, rfl⟩

/-- A machine that starts a program has a process that is about to run it. -/
theorem spawn_begins {m m' : Machine} {directory : Location} {name : String}
    {arguments entries : List String} {number input output messages : Nat}
    (h : m.spawn directory name arguments entries = .ok (m', number, input, output, messages)) :
    ∃ p, m'.process? number = some p ∧ p.Begins m'.files directory name arguments entries := by
  rw [spawn] at h
  split at h
  · cases h
  · dsimp only [bind, Except.bind] at h
    split at h
    · cases h
    · next m₁ hbecome =>
      obtain ⟨p, hfound, hbegins⟩ := become_begins List.mem_concat_self rfl hbecome
      cases h
      exact ⟨p, hfound, hbegins⟩

end Machine

/-- Whether the child of a number is a process that is about to run what is launched, told the
variables of an environment. -/
def ProcessState.Begins (s : ProcessState) (launch : Launch) (number : Nat) (env : Environment) :
    Prop :=
  ∃ child p entries, s.child? number = some child ∧
    s.machine.process? child.process = some p ∧
    p.Begins s.machine.files launch.directory (Machine.spell launch.program)
      (launch.arguments.map Machine.spell) entries ∧
    env.IsToldBy entries

/-- A start that succeeds leaves a child that is about to run. -/
theorem ProcessState.start_begins {launch : Launch} {s : ProcessState} {number : Nat}
    {env : Environment} (h : (start launch s number env).2 = none) :
    (start launch s number env).1.Begins launch number env := by
  rw [start] at h ⊢
  split at h
  · cases h
  · next machine process input output messages hspawn =>
    obtain ⟨p, hfound, hbegins⟩ := Machine.spawn_begins hspawn
    refine ⟨_, p, _, List.find?_cons_of_pos (decide_eq_true rfl), hfound, hbegins, ?_⟩
    exact env.isToldBy_assignments

/-- Events that bring nothing to a child start none. -/
theorem starts_nothing {events : List Event} (h : deliveries events = []) :
    ∀ event ∈ events, event.started? = none := by
  intro event hmem
  have hnone := List.filterMap_eq_nil_iff.mp h event hmem
  cases event with
  | start => cases hnone
  | _ => rfl

/-- A launch of the utility that ends at once. -/
def Launch.succeed : Launch := ⟨"true", [], [], none⟩

/-- A runner whose children are processes of that utility. -/
def Runner.onMachine : Runner ProcessState LimitedSink :=
  ⟨ProcessState.host .succeed, LimitedSink.sink, .ofMillis 100, 10⟩

/-- A fresh start on a machine with the utilities. -/
def RunState.onMachine : RunState ProcessState LimitedSink :=
  { host := { machine := { files := .system } }, sink := {} }

namespace Runner

variable {β σ : Type} {r : Runner β σ}

/-- A command starts no child, or it is a restart and ends with a start. -/
theorem Executed.starts {line : Line} {command : Command} {books books' : Books}
    {events : List Event} {result : Except Halt Unit}
    (h : r.Executed line command books events result books') :
    (∀ event ∈ events, event.started? = none) ∨
      ∃ env own, command = .restart env ∧ result = .ok () ∧
        events = own ++ [.start books.started env none] ∧
        ∀ event ∈ own, event.started? = none := by
  cases h with
  | unended hended => exact .inl (starts_nothing hended.deliveries_eq)
  | unstarted hended =>
    refine .inl (List.forall_mem_append.mpr ⟨starts_nothing hended.deliveries_eq, ?_⟩)
    exact List.forall_mem_singleton.mpr rfl
  | restarted hended =>
    exact .inr ⟨_, _, rfl, rfl, rfl, starts_nothing hended.deliveries_eq⟩
  | sent _ hdrained =>
    exact .inl (by simpa [Event.started?] using starts_nothing hdrained.deliveries_eq)
  | _ => exact .inl (by simp [Event.started?])

/-- A line that starts a child asks for a restart, and ends with the start. -/
theorem Carried.start_cases {s s' : RunState β σ} {line : Line} {earlier later : List Event}
    {result : Except Halt Unit} {number : Nat} {env : Environment}
    (h : r.Carried line s (earlier ++ .start number env none :: later) result s') :
    (s.core.step line.text).1 = .restart env ∧ result = .ok () ∧ later = [] := by
  rcases h.rule.starts with hnone | ⟨env', own, hcommand, hresult, hevents, hown⟩
  · have hstart := hnone (.start number env none) (by simp)
    cases hstart
  · rcases List.append_eq_append_iff.mp hevents with ⟨more, hmore, hlast⟩ | ⟨more, hmore, hlast⟩
    · cases more with
      | nil =>
        cases hlast
        exact ⟨hcommand, hresult, rfl⟩
      | cons first rest =>
        -- The start would be one of the events before the last one.
        obtain ⟨rfl, -⟩ := List.cons.inj hlast
        have hstart := hown (.start number env none) (hmore ▸ by simp)
        cases hstart
    · cases more with
      | nil =>
        cases hlast
        exact ⟨hcommand, hresult, rfl⟩
      | cons first rest => simp at hlast

/-- Every start that lines make belongs to the restart at one of them. -/
theorem Performed.start_cases {s s' : RunState β σ} {lines : List Line}
    {events earlier later : List Event} {result : Except Halt Unit} {number : Nat}
    {env : Environment} (h : r.Performed s lines events result s')
    (hevents : events = earlier ++ .start number env none :: later) :
    ∃ before line after first own s₁ s₂, lines = before ++ line :: after ∧
      earlier = first ++ own ∧ r.Performed s before first (.ok ()) s₁ ∧
      r.Carried line s₁ (own ++ [.start number env none]) (.ok ()) s₂ := by
  induction h generalizing earlier with
  | nil => simp at hevents
  | @stopped s line rest events halt s' hline =>
    subst hevents
    cases hline.start_cases.2.1
  | @cons s line rest events events' result s₁ s₂ hline hrest ih =>
    -- The start is one of the line or one of the lines after it.
    have hlater {more : List Event} (hearlier : earlier = events ++ more)
        (hmore : events' = more ++ .start number env none :: later) :
        ∃ before last after first own t t', line :: rest = before ++ last :: after ∧
          earlier = first ++ own ∧ r.Performed s before first (.ok ()) t ∧
          r.Carried last t (own ++ [.start number env none]) (.ok ()) t' := by
      obtain ⟨before, last, after, first, own, t, t', hlines, rfl, hbefore, hlast⟩ := ih hmore
      refine ⟨line :: before, last, after, events ++ first, own, t, t', ?_, ?_,
        .cons hline hbefore, hlast⟩
      · rw [hlines, List.cons_append]
      · rw [hearlier, List.append_assoc]
    rcases List.append_eq_append_iff.mp hevents with ⟨more, hmore, hown⟩ | ⟨more, hmore, hown⟩
    · exact hlater hmore hown
    · cases more with
      | nil =>
        have hearlier : earlier = events ++ [] := by
          rw [hmore, List.append_nil, List.append_nil]
        exact hlater hearlier hown.symm
      | cons first own =>
        obtain ⟨rfl, -⟩ := List.cons.inj hown
        subst hmore
        obtain ⟨-, -, rfl⟩ := hline.start_cases
        exact ⟨[], line, rest, [], earlier, s, s₁, rfl, rfl, .nil, hline⟩

/-- Lines that are carried out leave the variables and the skip mode that they ask for. -/
theorem Performed.core_eq {s s' : RunState β σ} {lines : List Line} {events : List Event}
    (h : r.Performed s lines events (.ok ()) s') :
    s'.core = s.core.after (lines.map Line.text) := by
  generalize hresult : Except.ok () = result at h
  induction h with
  | nil => rfl
  | stopped => cases hresult
  | @cons s line rest events events' result s₁ s₂ hline _ ih =>
    have hcore : s₁.core = (s.core.step line.text).2 := hline.rule.core_eq
    rw [ih hresult, hcore]
    rfl

/-- A start on the host leaves the state that the host gives. -/
theorem Carried.begins {r : Runner ProcessState σ} {launch : Launch}
    (hhost : r.host = ProcessState.host launch) {s s' : RunState ProcessState σ} {line : Line}
    {own : List Event} {number : Nat} {env : Environment}
    (h : r.Carried line s (own ++ [.start number env none]) (.ok ()) s') :
    s'.host.Begins launch number env := by
  obtain ⟨-, hanswer, hlast⟩ := h.does.answered.split
  have hstate : (ProcessState.start launch (r.afterAll s.parties own).host number env).1 =
      s'.host := by
    have hparties := congrArg Parties.host hlast
    rw [after, hhost] at hparties
    exact hparties
  rw [Answers, hhost] at hanswer
  rw [← hstate]
  exact ProcessState.start_begins hanswer

/-- Every start of a run belongs to a restart at one of the script's lines. The child gets the
variables that the lines before leave, and right after that line its process is about to run, told
these variables. -/
theorem run_tells (r : Runner ProcessState σ) {launch : Launch}
    (hhost : r.host = ProcessState.host launch) {script : Script}
    {s s' : RunState ProcessState σ} {outcome : Outcome} (h : r.run script s = (outcome, s'))
    {earlier later : List Event} {number : Nat} {env : Environment}
    (hstart : s'.events = s.events ++ (earlier ++ .start number env none :: later)) :
    ∃ before line after s₁ s₂, script.lines = before ++ line :: after ∧
      (r.runLines before).run.run s = (.ok (), s₁) ∧
      (r.runLine line).run.run s₁ = (.ok (), s₂) ∧
      s₂.events = s.events ++ (earlier ++ [.start number env none]) ∧
      (s₁.core.step line.text).1 = .restart env ∧
      env = (s.core.after (before.map Line.text)).env ∧
      s₂.host.Begins launch number env := by
  obtain ⟨events, hevents, -, hran⟩ := ran_of_run h
  obtain ⟨work, result, t, closing, hwork, hsplit, hclosing, -⟩ := hran.ending
  have hall : earlier ++ .start number env none :: later = work ++ closing :=
    List.append_cancel_left (hstart.symm.trans (hevents.trans (hsplit ▸ rfl)))
  -- What comes after the lines starts no child.
  have houtside : .start number env none ∉ closing := fun hmem => nomatch hclosing _ hmem
  obtain ⟨more, rfl⟩ : ∃ more, work = earlier ++ .start number env none :: more := by
    rcases List.append_eq_append_iff.mp hall with ⟨more, hmore, hrest⟩ | ⟨more, hmore, hrest⟩
    · cases more with
      | nil =>
        rw [List.nil_append] at hrest
        exact absurd (hrest ▸ List.mem_cons_self) houtside
      | cons first more =>
        obtain ⟨rfl, -⟩ := List.cons.inj hrest
        exact ⟨more, hmore⟩
    · exact absurd (hrest ▸ List.mem_append_right more List.mem_cons_self) houtside
  obtain ⟨before, line, after, first, own, s₁, s₂, hlines, rfl, hbefore, hline⟩ :=
    hwork.start_cases rfl
  have hcommand := hline.start_cases.1
  have hcore := hbefore.core_eq
  refine ⟨before, line, after, s₁, s₂, hlines, hbefore.does.ends, hline.does.ends, ?_, hcommand, ?_,
    hline.begins hhost⟩
  · rw [hline.does.events_eq, hbefore.does.events_eq]
    simp only [List.append_assoc]
  · rw [← hcore]
    exact (Core.step_command s₁.core line.text).1 _ hcommand

/-- A script with an equals sign in the value of a variable. -/
def equalsInValue : Script := Script.ofText "/d" "ENV A b=c\nRESTART\n"

/-- An equals sign in a value does no harm. -/
theorem run_tells_value :
    ∃ s s₁ s₂ line env,
      onMachine.run equalsInValue .onMachine =
        (.finished { lines := 2, restarts := 1 }, s) ∧
      (onMachine.runLine line).run.run s₁ = (.ok (), s₂) ∧
      s₂.events = [.start 0 env none] ∧
      s₂.host.Begins .succeed 0 env ∧
      env.assignments.map Machine.spell = ["A=b=c"] ∧
      env.IsSeenIn ["A=b=c"] := by
  have hrun : (onMachine.run equalsInValue .onMachine).1 =
        .finished { lines := 2, restarts := 1 } ∧
      (onMachine.run equalsInValue .onMachine).2.events =
        [.start 0 (.ofList [("A", "b=c")]) none, .teardown 0 {}, .flush none] ∧
      (Environment.ofList [("A", "b=c")]).assignments.map Machine.spell = ["A=b=c"] ∧
      ∀ binding ∈ (Environment.ofList [("A", "b=c")]).entries, '=' ∉ binding.1.toList := by
    decide +kernel
  obtain ⟨hfinished, hevents, hentries, hplain⟩ := hrun
  obtain ⟨s, hs⟩ := run_eq_of_fst hfinished
  rw [hs] at hevents
  have hhost : onMachine.host = ProcessState.host .succeed := rfl
  have hsplit : s.events = RunState.onMachine.events ++
      ([] ++ .start 0 (.ofList [("A", "b=c")]) none :: [.teardown 0 {}, .flush none]) := hevents
  obtain ⟨before, line, after, s₁, s₂, -, -, hline, hstart, -, -, hbegins⟩ :=
    run_tells onMachine hhost hs hsplit
  have hseen := Environment.isSeenIn_assignments hplain
  rw [hentries] at hseen
  exact ⟨s, s₁, s₂, line, _, hs, hline, hstart, hbegins, hentries, hseen⟩

/-- A script with an equals sign in the name of a variable. -/
def equalsInName : Script := Script.ofText "/d" "ENV A=B c\nRESTART\n"

/-- An equals sign in a name makes another variable of it. -/
theorem run_tells_shorter_name :
    ∃ s s₁ s₂,
      onMachine.run equalsInName .onMachine =
        (.finished { lines := 2, restarts := 1 }, s) ∧
      equalsInName.lines = [⟨1, "ENV A=B c"⟩, ⟨2, "RESTART"⟩] ∧
      (onMachine.runLine ⟨1, "ENV A=B c"⟩).run.run .onMachine = (.ok (), s₁) ∧
      (onMachine.runLine ⟨2, "RESTART"⟩).run.run s₁ = (.ok (), s₂) ∧
      s₂.host.Begins .succeed 0 s₁.core.env ∧
      s₁.core.env.assignments.map Machine.spell = ["A=B=c"] ∧
      Machine.Program.valueOf? ["A=B=c"] "A" = some "B=c" ∧
      s₁.core.env.get? "A" = none := by
  have hrun : (onMachine.run equalsInName .onMachine).1 =
        .finished { lines := 2, restarts := 1 } ∧
      equalsInName.lines = [⟨1, "ENV A=B c"⟩, ⟨2, "RESTART"⟩] := by
    decide +kernel
  have hlast : ((onMachine.runLine ⟨2, "RESTART"⟩).run.run
        ((onMachine.runLine ⟨1, "ENV A=B c"⟩).run.run .onMachine).2).1 = .ok () ∧
      ((onMachine.runLine ⟨2, "RESTART"⟩).run.run
        ((onMachine.runLine ⟨1, "ENV A=B c"⟩).run.run .onMachine).2).2.events =
        [.start 0 (.ofList [("A=B", "c")]) none] := by
    decide +kernel
  have hfirst : ((onMachine.runLine ⟨1, "ENV A=B c"⟩).run.run .onMachine).1 = .ok () ∧
      ((onMachine.runLine ⟨1, "ENV A=B c"⟩).run.run .onMachine).2.events = [] ∧
      ((onMachine.runLine ⟨1, "ENV A=B c"⟩).run.run .onMachine).2.core.env =
        .ofList [("A=B", "c")] := by
    decide +kernel
  obtain ⟨s, hs⟩ := run_eq_of_fst hrun.1
  obtain ⟨first, result, s₁, henv⟩ := onMachine.runLine_follows ⟨1, "ENV A=B c"⟩ .onMachine
  obtain ⟨own, result', s₂, hrestart⟩ := onMachine.runLine_follows ⟨2, "RESTART"⟩ s₁
  rw [henv.does.ends] at hlast hfirst
  rw [hrestart.does.ends] at hlast
  obtain ⟨rfl, hnothing, hcore⟩ := hfirst
  obtain ⟨rfl, hstart⟩ := hlast
  have hown : own = [] ++ [.start 0 (.ofList [("A=B", "c")]) none] := by
    rw [← hstart, hrestart.does.events_eq, hnothing, List.nil_append, List.nil_append]
  subst hown
  have hhost : onMachine.host = ProcessState.host .succeed := rfl
  have hbegins := hrestart.begins hhost
  rw [← hcore] at hbegins
  refine ⟨s, s₁, s₂, hs, hrun.2, henv.does.ends, hrestart.does.ends, hbegins, ?_, ?_, ?_⟩
  · rw [hcore]
    decide +kernel
  · decide +kernel
  · rw [hcore]
    decide +kernel

end Runner

end LineScript
