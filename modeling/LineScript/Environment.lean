import LineScript.Text.Utf8

/-!
# Environments

The variables that a script has collected for the next child. An environment
lists each name once, in the byte order of the UTF-8 of the names, so that two
environments with the same bindings are the same list. Setting a name again
replaces its value; nothing restricts what a name or a value may hold.
-/

namespace LineScript

/-- A name is ordered by the bytes that encode it. -/
def keyOrder (a b : String) : Prop := Utf8.ofString a < Utf8.ofString b

/-- The order of two names can be decided. -/
instance : DecidableRel keyOrder := fun a b =>
  inferInstanceAs (Decidable (Utf8.ofString a < Utf8.ofString b))

/-- No name stands before itself. -/
theorem keyOrder_irrefl (a : String) : ¬ keyOrder a a := List.lt_irrefl _

/-- The order of names is transitive. -/
theorem keyOrder_trans {a b c : String} (hab : keyOrder a b) (hbc : keyOrder b c) :
    keyOrder a c := List.lt_trans hab hbc

/-- Of two different names one stands before the other. -/
theorem keyOrder_of_not {a b : String} (hne : a ≠ b) (h : ¬ keyOrder a b) : keyOrder b a := by
  apply Decidable.byContradiction
  intro hn
  exact hne (Utf8.ofString_injective (List.le_antisymm (List.not_lt.1 hn) (List.not_lt.1 h)))

/-- The variables for the next child. -/
structure Environment where
  /-- Names with their values. -/
  entries : List (String × String)
  /-- The names strictly increase. -/
  sorted : entries.Pairwise fun a b => keyOrder a.1 b.1 := by exact List.Pairwise.nil

namespace Environment

/-- Environments with the same entries are equal. -/
@[ext] theorem ext {a b : Environment} (h : a.entries = b.entries) : a = b := by
  cases a
  cases b
  cases h
  rfl

/-- Equality of environments can be decided. -/
instance : DecidableEq Environment := fun a b =>
  decidable_of_iff (a.entries = b.entries) ⟨ext, fun h => h ▸ rfl⟩

/-- No variables. -/
def empty : Environment := ⟨[], List.Pairwise.nil⟩

/-- Puts a binding in its place, over an older one of the same name. -/
def insertEntry (key value : String) : List (String × String) → List (String × String)
  | [] => [(key, value)]
  | entry :: rest =>
    if key = entry.1 then (key, value) :: rest
    else if keyOrder key entry.1 then (key, value) :: entry :: rest
    else entry :: insertEntry key value rest

/-- Every entry after an insertion is the new one or an old one. -/
theorem mem_insertEntry {key value : String} {entries : List (String × String)}
    {entry : String × String} (h : entry ∈ insertEntry key value entries) :
    entry = (key, value) ∨ entry ∈ entries := by
  induction entries with
  | nil => simpa [insertEntry] using h
  | cons head rest ih =>
    unfold insertEntry at h
    split at h
    · rcases List.mem_cons.1 h with h | h
      · exact .inl h
      · exact .inr (List.mem_cons_of_mem _ h)
    · split at h
      · rcases List.mem_cons.1 h with h | h
        · exact .inl h
        · exact .inr h
      · rcases List.mem_cons.1 h with h | h
        · exact .inr (h ▸ List.mem_cons_self)
        · rcases ih h with h | h
          · exact .inl h
          · exact .inr (List.mem_cons_of_mem _ h)

/-- An insertion keeps the names increasing. -/
theorem sorted_insertEntry (key value : String) {entries : List (String × String)}
    (h : entries.Pairwise fun a b => keyOrder a.1 b.1) :
    (insertEntry key value entries).Pairwise fun a b => keyOrder a.1 b.1 := by
  induction entries with
  | nil => simp [insertEntry]
  | cons head rest ih =>
    obtain ⟨hhead, hrest⟩ := List.pairwise_cons.1 h
    unfold insertEntry
    split
    · next heq => exact List.pairwise_cons.2 ⟨fun e he => heq ▸ hhead e he, hrest⟩
    · next hne =>
      split
      · next hlt =>
        refine List.pairwise_cons.2 ⟨fun e he => ?_, h⟩
        rcases List.mem_cons.1 he with he | he
        · exact he ▸ hlt
        · exact keyOrder_trans hlt (hhead e he)
      · next hge =>
        refine List.pairwise_cons.2 ⟨fun e he => ?_, ih hrest⟩
        rcases mem_insertEntry he with he | he
        · exact he ▸ keyOrder_of_not hne hge
        · exact hhead e he

/-- The environment with `key` bound to `value`. -/
def set (env : Environment) (key value : String) : Environment :=
  ⟨insertEntry key value env.entries, sorted_insertEntry key value env.sorted⟩

/-- The value of a name. -/
def get? (env : Environment) (key : String) : Option String := env.entries.lookup key

/-- The number of variables. -/
def size (env : Environment) : Nat := env.entries.length

/-- Whether there are no variables. -/
def isEmpty (env : Environment) : Bool := env.entries.isEmpty

/-- The variables as a process is told them, each as its name, an equals sign
and its value. -/
def assignments (env : Environment) : List String :=
  env.entries.map fun entry => entry.1 ++ "=" ++ entry.2

/-- The environment that results from setting each binding in turn. -/
def ofList (bindings : List (String × String)) : Environment :=
  bindings.foldl (fun env binding => env.set binding.1 binding.2) empty

/-- Nothing is bound in the empty environment. -/
@[simp] theorem get?_empty (key : String) : empty.get? key = none := rfl

/-- The first entry of a name is its value. -/
theorem lookup_entry (entry : String × String) (rest : List (String × String)) (key : String) :
    (entry :: rest).lookup key = if key = entry.1 then some entry.2 else rest.lookup key := by
  by_cases h : key = entry.1
  · rw [if_pos h, List.lookup_cons, beq_iff_eq.mpr h]
  · rw [if_neg h, List.lookup_cons, beq_eq_false_iff_ne.mpr h]

/-- An insertion binds its name, and no other name anew. -/
theorem lookup_insertEntry (key value other : String) (entries : List (String × String)) :
    (insertEntry key value entries).lookup other =
      if other = key then some value else entries.lookup other := by
  induction entries with
  | nil => rw [insertEntry, lookup_entry]
  | cons entry rest ih =>
    unfold insertEntry
    split
    · next heq =>
      rw [lookup_entry, lookup_entry, ← heq]
      split <;> rfl
    · next hne =>
      split
      · rw [lookup_entry]
      · rw [lookup_entry, ih, lookup_entry]
        split
        · next hother => rw [if_neg (hother ▸ Ne.symm hne)]
        · rfl

/-- Setting a variable binds its name, and no other name anew. -/
theorem get?_set (env : Environment) (key value other : String) :
    (env.set key value).get? other = if other = key then some value else env.get? other :=
  lookup_insertEntry key value other env.entries

/-- A name has a value exactly if it is listed with it. -/
theorem get?_eq_some_iff {env : Environment} {key value : String} :
    env.get? key = some value ↔ (key, value) ∈ env.entries := by
  obtain ⟨entries, hsorted⟩ := env
  change entries.lookup key = some value ↔ (key, value) ∈ entries
  induction entries with
  | nil => simp
  | cons first rest ih =>
    obtain ⟨hfirst, hrest⟩ := List.pairwise_cons.1 hsorted
    rw [lookup_entry, List.mem_cons, Prod.ext_iff]
    split
    · next heq =>
      subst heq
      -- The names behind the first one come after it, so none of them is the same.
      have hother : (first.1, value) ∉ rest := fun hmem =>
        keyOrder_irrefl _ (hfirst (first.1, value) hmem)
      simp [hother, eq_comm]
    · next hne => simp [hne, ih hrest]

/-- The order is that of the bytes, so capital letters come first. -/
example : ((empty.set "b" "1").set "B" "2").entries = [("B", "2"), ("b", "1")] := by
  decide +kernel

end Environment

end LineScript
