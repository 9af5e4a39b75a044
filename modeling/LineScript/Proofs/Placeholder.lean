import LineScript.Proofs.Words

/-!
# Filling in the directory

The occurrences of a placeholder in a text are found from left to right, each one behind the
one before. They cut the text into pieces, and filling in a directory puts it between the
pieces, as it is. A directory begins with a slash, which is in no placeholder, so that none can
come into being where a piece and the directory meet. Main result: a line that is made ready is
the trimmed line with the directory between its pieces, and making it ready again changes
nothing, if the directory has no dollar sign and does not end in a blank.
-/

namespace LineScript

/-- The pieces of a text between the occurrences of a token, each the leftmost one behind the
one before. -/
inductive CutAtOccurrences {α : Type} (token : List α) : List α → List (List α) → Prop
  /-- There is no further occurrence. -/
  | last {text} (none : ¬ token <:+: text) : CutAtOccurrences token text [text]
  /-- There is an occurrence, and none that begins before it. -/
  | occurrence {before after pieces}
      (leftmost : ∀ shorter : List α, shorter.length < before.length →
        ¬ shorter ++ token <+: before ++ (token ++ after))
      (later : CutAtOccurrences token after pieces) :
      CutAtOccurrences token (before ++ (token ++ after)) (before :: pieces)

namespace CutAtOccurrences

variable {α : Type} {token text : List α} {pieces : List (List α)}

/-- There is a piece. -/
theorem ne_nil (h : CutAtOccurrences token text pieces) : pieces ≠ [] := by
  cases h <;> exact List.cons_ne_nil _ _

/-- The leftmost occurrences leave no choice. -/
theorem unique (h : CutAtOccurrences token text pieces) {pieces' : List (List α)}
    (h' : CutAtOccurrences token text pieces') : pieces = pieces' := by
  induction h generalizing pieces' with
  | last hnone =>
    cases h' with
    | last => rfl
    | @occurrence before after =>
      exact absurd ⟨before, after, List.append_assoc _ _ _⟩ hnone
  | @occurrence before after pieces leftmost later ih =>
    generalize htext : before ++ (token ++ after) = text at h'
    cases h' with
    | last hnone =>
      exact absurd ⟨before, after, (List.append_assoc _ _ _).trans htext⟩ hnone
    | @occurrence before' after' pieces' leftmost' later' =>
      have hbegins : before ++ token <+: before' ++ (token ++ after') :=
        ⟨after, (List.append_assoc _ _ _).trans htext⟩
      have hbegins' : before' ++ token <+: before ++ (token ++ after) :=
        ⟨after', (List.append_assoc _ _ _).trans htext.symm⟩
      have hlength : before.length = before'.length := by
        rcases Nat.lt_trichotomy before.length before'.length with hlt | heq | hlt
        · exact absurd hbegins (leftmost' before hlt)
        · exact heq
        · exact absurd hbegins' (leftmost before' hlt)
      obtain ⟨rfl, hrest⟩ := List.append_inj htext hlength
      cases List.append_cancel_left hrest
      rw [ih later']

/-- No piece has the token in it. -/
theorem not_infix (htoken : token ≠ []) (h : CutAtOccurrences token text pieces) :
    ∀ piece ∈ pieces, ¬ token <:+: piece := by
  induction h with
  | last hnone => exact List.forall_mem_singleton.mpr hnone
  | @occurrence before after pieces leftmost later ih =>
    refine List.forall_mem_cons.mpr ⟨?_, ih⟩
    rintro ⟨shorter, rest, hbefore⟩
    have hpositive : 0 < token.length := List.length_pos_iff.mpr htoken
    have hlength := congrArg List.length hbefore
    rw [List.length_append, List.length_append] at hlength
    refine leftmost shorter (by omega) ⟨rest ++ (token ++ after), ?_⟩
    rw [← List.append_assoc, hbefore]

/-- A character where no occurrence begins goes to the piece behind it. -/
theorem cons {c : α} {rest piece : List α} (hbegins : ¬ token <+: c :: rest)
    (h : CutAtOccurrences token rest (piece :: pieces)) :
    CutAtOccurrences token (c :: rest) ((c :: piece) :: pieces) := by
  cases h with
  | last hnone =>
    refine .last fun hfound => ?_
    rcases List.infix_cons_iff.mp hfound with hfirst | hlater
    · exact hbegins hfirst
    · exact hnone hlater
  | @occurrence before after pieces leftmost later =>
    have hleftmost : ∀ shorter : List α, shorter.length < (c :: piece).length →
        ¬ shorter ++ token <+: c :: piece ++ (token ++ after) := by
      intro shorter hshorter hfound
      cases shorter with
      | nil => exact hbegins hfound
      | cons d shorter =>
        exact leftmost shorter (Nat.lt_of_succ_lt_succ hshorter)
          (List.cons_prefix_cons.mp hfound).2
    exact .occurrence hleftmost later

end CutAtOccurrences

namespace Script

open Text

/-- Filling in the directory finds the leftmost occurrences, and puts the directory between the
pieces. -/
theorem exists_cutAtOccurrences (directory text : List Char) :
    ∃ pieces, CutAtOccurrences placeholder.toList text pieces ∧
      substitute directory text = directory.intercalate pieces := by
  induction text using substitute.induct with
  | case1 rest ih =>
    obtain ⟨pieces, hpieces, hrest⟩ := ih
    refine ⟨[] :: pieces, ?_, ?_⟩
    · have hleftmost : ∀ shorter : List Char, shorter.length < ([] : List Char).length →
          ¬ shorter ++ placeholder.toList <+: [] ++ (placeholder.toList ++ rest) :=
        fun _ hshorter => absurd hshorter (Nat.not_lt_zero _)
      exact .occurrence hleftmost hpieces
    · rw [substitute, hrest, List.intercalate_cons_of_ne_nil hpieces.ne_nil, List.nil_append]
  | case2 c rest hnot ih =>
    obtain ⟨pieces, hpieces, hrest⟩ := ih
    have hbegins : ¬ placeholder.toList <+: c :: rest := by
      rintro ⟨later, hlater⟩
      obtain ⟨hc, hlater⟩ := List.cons.inj hlater
      exact hnot later hc.symm hlater.symm
    obtain ⟨piece, later, rfl⟩ := List.exists_cons_of_ne_nil hpieces.ne_nil
    refine ⟨(c :: piece) :: later, hpieces.cons hbegins, ?_⟩
    rw [substitute.eq_2 directory c rest hnot, hrest]
    cases later with
    | nil => rw [List.intercalate_singleton, List.intercalate_singleton]
    | cons next later =>
      rw [List.intercalate_cons_cons, List.intercalate_cons_cons]
      rfl
  | case3 => exact ⟨[[]], .last (by decide), rfl⟩

/-- Behind a text without dollar signs a placeholder is where it was. -/
theorem infix_of_append {first second : List Char} (h : '$' ∉ first)
    (hfound : placeholder.toList <:+: first ++ second) : placeholder.toList <:+: second := by
  induction first with
  | nil => exact hfound
  | cons c first ih =>
    rw [List.cons_append, List.infix_cons_iff] at hfound
    rcases hfound with ⟨later, hlater⟩ | hfound
    · obtain ⟨hc, _⟩ := List.cons.inj hlater
      exact absurd (hc ▸ List.mem_cons_self) h
    · exact ih (fun hmem => h (List.mem_cons_of_mem c hmem)) hfound

/-- A directory that begins with a slash and has no dollar sign makes no placeholder, neither
alone nor with the pieces that it joins. -/
theorem plain_intercalate {directory : List Char} (hslash : directory.head? = some '/')
    (hdollar : '$' ∉ directory) {pieces : List (List Char)}
    (hpieces : ∀ piece ∈ pieces, ¬ placeholder.toList <:+: piece) :
    ¬ placeholder.toList <:+: directory.intercalate pieces := by
  induction pieces with
  | nil => exact fun hfound => absurd (List.infix_nil.mp hfound) (by decide)
  | cons piece pieces ih =>
    obtain ⟨hpiece, hpieces⟩ := List.forall_mem_cons.mp hpieces
    cases hrest : pieces with
    | nil =>
      rw [List.intercalate_singleton]
      exact hpiece
    | cons next later =>
      have hlater := ih hpieces
      obtain ⟨behind, rfl⟩ := List.head?_eq_some_iff.mp hslash
      rw [hrest] at hlater
      rw [List.intercalate_cons_of_ne_nil (List.cons_ne_nil next later), List.append_assoc]
      have hbehind : '$' ∉ behind := fun hmem => hdollar (List.mem_cons_of_mem '/' hmem)
      exact plain_append_cons (by decide) hpiece fun hfound =>
        hlater (infix_of_append hbehind hfound)

/-- What joined pieces of a text end in is the end of the text, or that of the directory. -/
theorem last_intercalate {directory token text : List Char} {pieces : List (List Char)}
    (h : CutAtOccurrences token text pieces)
    (hdirectory : ∀ c ∈ directory.getLast?, isBlank c = false)
    (htext : ∀ c ∈ text.getLast?, isBlank c = false) (hne : directory ≠ []) :
    ∀ c ∈ (directory.intercalate pieces).getLast?, isBlank c = false := by
  induction h with
  | last => rwa [List.intercalate_singleton]
  | @occurrence before after pieces _ later ih =>
    have hafter : ∀ c ∈ after.getLast?, isBlank c = false := by
      intro c hc
      refine htext c ?_
      rw [List.getLast?_append, List.getLast?_append, Option.mem_def.mp hc]
      rfl
    rw [List.intercalate_cons_of_ne_nil later.ne_nil, List.getLast?_append]
    intro c hc
    cases hlast : (directory.intercalate pieces).getLast? with
    | some d =>
      rw [hlast, Option.some_or] at hc
      exact ih hafter c (hlast ▸ hc)
    | none =>
      rw [hlast, Option.none_or, List.getLast?_append,
        Option.or_of_isSome (List.getLast?_isSome.mpr hne)] at hc
      exact hdirectory c hc

/-- Pieces of a text without blanks at its ends, joined by a directory that begins with a slash
and does not end in a blank, have no blank at their ends. -/
theorem bare_intercalate {directory token text : List Char} {pieces : List (List Char)}
    (h : CutAtOccurrences token text pieces) (hslash : directory.head? = some '/')
    (hlast : ∀ c ∈ directory.getLast?, isBlank c = false) (htext : IsBare text) :
    IsBare (directory.intercalate pieces) := by
  have hne : directory ≠ [] := fun hnil => by
    rw [hnil] at hslash
    cases hslash
  refine ⟨?_, last_intercalate h hlast htext.last hne⟩
  cases h with
  | last =>
    rw [List.intercalate_singleton]
    exact htext.head
  | @occurrence before after pieces _ later =>
    rw [List.intercalate_cons_of_ne_nil later.ne_nil]
    cases before with
    | nil =>
      obtain ⟨behind, rfl⟩ := List.head?_eq_some_iff.mp hslash
      rintro _ ⟨⟩
      rfl
    | cons c before =>
      rintro _ ⟨⟩
      exact htext.head c rfl

/-- A line that is made ready is the raw line without the blanks around it, in which the pieces
between the leftmost occurrences of the placeholder are kept and the directory stands for each
occurrence; without an occurrence it is just that. For a directory that begins with a slash, a
placeholder is left only if the directory has a dollar sign; and without one, if it does not end
in a blank, the line has no blanks around it and is made ready already. -/
theorem prepareLine_eq_intercalate (raw baseDir : String) :
    ∃ before text after pieces,
      (raw.toList = before ++ text ++ after ∧ (∀ c ∈ before, isBlank c = true) ∧
        (∀ c ∈ after, isBlank c = true) ∧ IsBare text) ∧
      (∀ others, CutAtOccurrences placeholder.toList text others ↔ others = pieces) ∧
      (prepareLine raw baseDir).toList = baseDir.toList.intercalate pieces ∧
      (¬ placeholder.toList <:+: text → prepareLine raw baseDir = String.ofList text) ∧
      (baseDir.toList.head? = some '/' →
        (placeholder.toList <:+: (prepareLine raw baseDir).toList → '$' ∈ baseDir.toList) ∧
        ('$' ∉ baseDir.toList → (∀ c ∈ baseDir.toList.getLast?, isBlank c = false) →
          IsBare (prepareLine raw baseDir).toList ∧
            prepareLine (prepareLine raw baseDir) baseDir = prepareLine raw baseDir)) := by
  obtain ⟨before, after, hraw, hbefore, hafter, hbare⟩ := exists_trimmed raw.toList
  obtain ⟨pieces, hpieces, hfilled⟩ := exists_cutAtOccurrences baseDir.toList (trim raw.toList)
  have hready : (prepareLine raw baseDir).toList = baseDir.toList.intercalate pieces := by
    rw [prepareLine, String.toList_ofList, hfilled]
  have hplain : ∀ piece ∈ pieces, ¬ placeholder.toList <:+: piece :=
    hpieces.not_infix (by decide)
  refine ⟨before, trim raw.toList, after, pieces, ⟨hraw, hbefore, hafter, hbare⟩,
    fun others => ⟨fun h => h.unique hpieces, fun h => h ▸ hpieces⟩, hready, fun hnone => ?_,
    fun hslash => ⟨fun hfound => ?_, fun hdollar hlast => ?_⟩⟩
  · rw [prepareLine, substitute_of_plain hnone]
  · by_contra hdollar
    rw [hready] at hfound
    exact plain_intercalate hslash hdollar hplain hfound
  · have hends := bare_intercalate hpieces hslash hlast hbare
    have hnone := plain_intercalate hslash hdollar hplain
    rw [← hready] at hends hnone
    have htrim := trim_padded hends (List.forall_mem_nil _) (List.forall_mem_nil _)
    rw [List.nil_append, List.append_nil] at htrim
    refine ⟨hends, ?_⟩
    have hagain := prepareLine_of_plain htrim hnone baseDir
    rwa [String.ofList_toList] at hagain

/-- A dollar sign at the end of the directory makes a placeholder with the piece behind it. Without
one the pieces that an occurrence is taken out of do not meet, and stay as they are. -/
theorem prepareLine_eq_intercalate_seams :
    (placeholder.toList <:+: (prepareLine "$SDSD" "/$").toList ∧ '$' ∈ "/$".toList) ∧
      prepareLine " $$SDSD $SD" "/d" = "$/dSD /d" ∧
      prepareLine "$/dSD /d" "/d" = "$/dSD /d" := by
  obtain ⟨_, _, _, _, _, _, _, _, hseam⟩ := prepareLine_eq_intercalate "$SDSD" "/$"
  obtain ⟨_, _, _, _, _, _, _, _, hready⟩ := prepareLine_eq_intercalate " $$SDSD $SD" "/d"
  have hfound : placeholder.toList <:+: (prepareLine "$SDSD" "/$").toList :=
    ⟨['/'], [], by decide⟩
  have hfilled : prepareLine " $$SDSD $SD" "/d" = "$/dSD /d" := by decide +kernel
  obtain ⟨_, hagain⟩ := (hready rfl).2 (by decide) (end_of_all (by decide +kernel))
  rw [hfilled] at hagain
  exact ⟨⟨hfound, (hseam rfl).1 hfound⟩, hfilled, hagain⟩

end Script

end LineScript
