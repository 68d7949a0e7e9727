import Story.Proofs.LineBreaks
import Story.Proofs.Rewording
import Story.Proofs.SeenNodes
import Story.Proofs.TwinStatements

/-!
# How lines end makes no difference

A story whose lines end with line feeds may as well have a carriage return before each of them. Both stories
are read alike, so their trees look the same; and of trees that look the same, scripts are written that
differ by carriage returns only. These are in the words that go over ends of lines, which are the insides of
strings.

* `Returned` — words, and the same words with carriage returns before some of their line feeds;
* `Rewording.returned` — the scripts of the two stories correspond in this way. Then their texts do, and their
  mappings are the same (`Rewording.mappings_eq`);
* `generate_withReturns` — all this for a story: its script, its mappings, and what is reported about it.
-/

namespace Story

/-! ### Words -/

/-- **The same words, with carriage returns before some line feeds.** -/
inductive Returned : List Char → List Char → Prop where
  | nil : Returned [] []
  | char {c : Char} {a b : List Char} (hc : c ≠ '\r') (h : Returned a b) : Returned (c :: a) (c :: b)
  | feed {a b : List Char} (h : Returned a b) : Returned ('\n' :: a) ('\r' :: '\n' :: b)

namespace Returned

variable {a b a' b' : List Char}

theorem append (h : Returned a b) (h' : Returned a' b') : Returned (a ++ a') (b ++ b') := by
  induction h with
  | nil => exact h'
  | char hc _ ih => exact .char hc ih
  | feed _ ih => exact .feed ih

theorem refl (h : '\r' ∉ a) : Returned a a := by
  induction a with
  | nil => exact .nil
  | cons c a ih =>
    obtain ⟨hc, ha⟩ := not_or.mp (mt List.mem_cons.mpr h)
    exact .char (Ne.symm hc) (ih ha)

theorem addReturns (h : '\r' ∉ a) : Returned a (addReturns a) := by
  induction a with
  | nil => exact .nil
  | cons c a ih =>
    obtain ⟨hc, ha⟩ := not_or.mp (mt List.mem_cons.mpr h)
    by_cases hfeed : c = '\n'
    · subst hfeed
      exact .feed (ih ha)
    · rw [addReturns_cons hfeed]
      exact .char (Ne.symm hc) (ih ha)

/-- Without the carriage returns the words are the same. -/
theorem filter_eq (h : Returned a b) : b.filter (· != '\r') = a := by
  induction h with
  | nil => rfl
  | char hc _ ih =>
    rw [List.filter_cons_of_pos, ih]
    exact bne_iff_ne.mpr hc
  | feed _ ih =>
    rw [List.filter_cons_of_neg (by decide), List.filter_cons_of_pos (by decide), ih]

/-- Both words lead to the same place of a script. -/
theorem foldl_step (h : Returned a b) (c : Cursor) : a.foldl Cursor.step c = b.foldl Cursor.step c := by
  induction h generalizing c with
  | nil => rfl
  | char _ _ ih => exact ih _
  | feed _ ih => exact ih _

theorem head?_eq_brace (h : Returned a b) : a.head? = some '\x7b' ↔ b.head? = some '\x7b' := by
  cases h with
  | nil => rfl
  | char => rfl
  | feed => exact ⟨nofun, nofun⟩

/-! Words in literals. -/

theorem escapeText (h : Returned a b) : Returned (escapeTextChars a) (escapeTextChars b) := by
  induction h with
  | nil => exact .nil
  | char hc h ih =>
    -- Whether a dollar sign is escaped depends on the sign after it only.
    simp only [escapeTextChars, h.head?_eq_brace]
    split_ifs
    · exact .char (by decide) (.char (by decide) ih)
    · exact .char (by decide) (.char (by decide) ih)
    · exact .char (by decide) (.char (by decide) ih)
    · exact .char hc ih
  | feed _ ih => exact .feed ih

theorem escapeString (h : Returned a b) : Returned (escapeStringChars a) (escapeStringChars b) := by
  have hother {c : Char} (hc : c ≠ '\\') (cs : List Char) : escapeStringChars (c :: cs) =
      if c = '\x60' then '\\' :: '\x60' :: escapeStringChars cs
      else if c = '$' ∧ cs.head? = some '\x7b' then '\\' :: '$' :: escapeStringChars cs
      else c :: escapeStringChars cs := by
    rw [escapeStringChars]
    · exact fun heq _ => hc heq
    · exact fun _ _ heq _ => hc heq
  fun_induction escapeStringChars a generalizing b with
  | case1 =>
    cases h
    exact .nil
  | case2 =>
    obtain _ | ⟨-, ⟨⟩⟩ := h
    exact .char (by decide) (.char (by decide) .nil)
  | case3 c cs ih =>
    -- A backslash keeps what comes after it, be it the end of a line.
    obtain _ | ⟨hslash, h⟩ := h
    cases h with
    | char hc h => exact .char hslash (.char hc (ih h))
    | feed h => exact .char hslash (.feed (ih h))
  | case4 cs _ _ ih =>
    obtain _ | ⟨hc, h⟩ := h
    exact .char (by decide) (.char hc (ih h))
  | case5 c cs _ _ _ hbrace ih =>
    obtain ⟨rfl, hbrace⟩ := hbrace
    obtain _ | ⟨hc, h⟩ := h
    rw [hother (by decide), if_neg (by decide), if_pos ⟨rfl, h.head?_eq_brace.mp hbrace⟩]
    exact .char (by decide) (.char hc (ih h))
  | case6 c cs hlast hnext htick hbrace ih =>
    have hslash : c ≠ '\\' := by
      intro heq
      cases cs with
      | nil => exact hlast heq rfl
      | cons d cs => exact hnext d cs heq rfl
    cases h with
    | char hc h =>
      rw [hother hslash, if_neg htick, if_neg fun hboth => hbrace ⟨hboth.1, h.head?_eq_brace.mpr hboth.2⟩]
      exact .char hc (ih h)
    | feed h => exact .feed (ih h)

end Returned

/-! ### Scripts -/

theorem not_mem_return_of_isPlain {text : String} (h : isPlain text = true) : '\r' ∉ text.toList := by
  intro hmem
  have hchar := List.all_eq_true.mp h _ hmem
  revert hchar
  decide

theorem isPlain_onOneLine (text : String) : isPlain (onOneLine text) = true := by
  rw [isPlain, onOneLine, String.toList_ofList]
  exact List.all_eq_true.mpr fun c hc => (List.mem_filter.mp hc).2

theorem returned_text (text : String) :
    Returned (withoutReturns text).toList (withReturns (withoutReturns text)).toList := by
  rw [withReturns, String.toList_ofList]
  refine .addReturns ?_
  rw [withoutReturns, String.toList_ofList]
  simp

namespace Rewording

/-- The words of a story without carriage returns, and of the story with them. -/
def returned (story : List Char) {layout : Layout} (hindentation : '\r' ∉ layout.indentation.toList)
    (hnewline : '\r' ∉ layout.newline.toList) : Rewording .plain (.returned story) layout where
  Word a b := Returned a.toList b.toList
  Place p q := p.line = q.line ∧ p.column = q.column
  append h h' := by
    rw [String.toList_append, String.toList_append]
    exact h.append h'
  plain h := .refl (not_mem_return_of_isPlain h)
  indentation := .refl hindentation
  newline := .refl hnewline
  place _ := ⟨rfl, rfl⟩
  text t := returned_text t
  textLine t := by
    rw [escapeText, escapeText, String.toList_ofList, String.toList_ofList]
    exact (returned_text t).escapeText
  quoted t := by
    rw [escapeString, escapeString, String.toList_ofList, String.toList_ofList]
    exact (returned_text t).escapeString
  name t := .refl (not_mem_return_of_isPlain (isPlain_onOneLine t))
  nameLiteral t := .refl (not_mem_return_of_isPlain (isPlain_quoteName _))
  sameName _ _ := Iff.rfl

variable {story : List Char} {layout : Layout} {hindentation : '\r' ∉ layout.indentation.toList}
  {hnewline : '\r' ∉ layout.newline.toList} {a b : Script}

/-- **Scripts that correspond have the same mappings.** -/
theorem mappings_eq (h : (returned story hindentation hnewline).Scripts a b) :
    a.mappings layout = b.mappings layout := by
  have hfrom (c : Cursor) (last : Option Cursor) :
      a.mappingsFrom layout c last = b.mappingsFrom layout c last := by
    induction h generalizing c last with
    | nil => rfl
    | cons hpiece _ ih =>
      cases hpiece with
      -- Words are equally wide without their carriage returns, so the position after them is the same.
      | text hwords =>
        rw [Script.mappingsFrom, Script.mappingsFrom, ih, Cursor.after, Cursor.after, hwords.foldl_step c]
        · exact nofun
        · exact nofun
      | lineBreak => exact ih _ _
      | margin level => exact ih _ _
      -- A mark maps to the line and the column of its place, and only offsets differ.
      | mark hplace =>
        have hmapping : c.mapping _ = c.mapping _ :=
          congrArg₂ (Mapping.mk c.line c.column (some 0) · · none) hplace.1 hplace.2
        rw [Script.mappingsFrom, Script.mappingsFrom, hmapping, ih, ih]
  exact hfrom _ _

end Rewording

/-! ### Reports -/

/-- **The same report, at the same lines and columns.** -/
structure Diagnostic.Agrees (d e : Diagnostic) : Prop where
  severity : d.severity = e.severity
  message : d.message = e.message
  code : d.code = e.code
  source : d.source = e.source
  start : d.span.start.line = e.span.start.line ∧ d.span.start.column = e.span.start.column
  stop : d.span.stop.line = e.span.stop.line ∧ d.span.stop.column = e.span.stop.column

namespace Diagnostic

variable (story : List Char)

theorem agrees_returned (d : Diagnostic) : d.Agrees (d.through (.returned story)) :=
  ⟨rfl, rfl, rfl, rfl, ⟨rfl, rfl⟩, ⟨rfl, rfl⟩⟩

theorem agrees_map_returned (ds : List Diagnostic) :
    List.Forall₂ Agrees ds (ds.map (Diagnostic.through (.returned story))) :=
  List.forall₂_map_right_iff.mpr (List.forall₂_same.mpr fun d _ => d.agrees_returned story)

/-- The order of reports is kept. -/
theorem notAfter_returned (d e : Diagnostic) :
    (d.through (.returned story)).notAfter (e.through (.returned story)) = d.notAfter e := by
  have hiff (d e : Diagnostic) : d.notAfter e = true ↔ d.span.start.offset < e.span.start.offset ∨
      d.span.start.offset = e.span.start.offset ∧ d.span.stop.offset ≤ e.span.stop.offset := by
    simp [notAfter]
  -- Being before or at a place comes down to not being after it.
  have hstart := Lens.returned_lt_iff story d.span.start e.span.start
  have hstart' := Lens.returned_lt_iff story e.span.start d.span.start
  have hstop := Lens.returned_lt_iff story e.span.stop d.span.stop
  rw [Bool.eq_iff_iff, hiff, hiff]
  simp only [Diagnostic.through, Span.through]
  omega

theorem sort_map_returned (ds : List Diagnostic) :
    sort (ds.map (Diagnostic.through (.returned story))) =
      (sort ds).map (Diagnostic.through (.returned story)) :=
  (List.map_mergeSort fun d _ e _ => (notAfter_returned story d e).symm).symm

end Diagnostic

/-! ### A story in both ways -/

theorem State.diagnostics_parseModule (s : State) (path : String) :
    (s.parseModule path).diagnostics = Diagnostic.sort (Grammar.lines s).2.reports.reverse := rfl

section

variable {text : String} (htext : '\r' ∉ text.toList) (path : String) (indentSize : Nat)
include htext

/-- The tree of a story without carriage returns looks as it is. -/
theorem parseModule_plain :
    (parseModule text path indentSize).module.through .plain = (parseModule text path indentSize).module := by
  have hlooks := ((State.matches_plain htext indentSize).parseModule rfl ⟨rfl, rfl⟩ ⟨rfl, rfl⟩ path).1
  exact hlooks.trans (Module.through_clear _)

/-- The tree of the story with carriage returns is what is to be seen of the story. -/
theorem parseModule_withReturns :
    (parseModule text path indentSize).module.through (.returned text.toList) =
      (parseModule (withReturns text) path indentSize).module ∧
    (parseModule (withReturns text) path indentSize).diagnostics =
      (parseModule text path indentSize).diagnostics.map (Diagnostic.through (.returned text.toList)) := by
  obtain ⟨hlooks, hreports⟩ :=
    (State.matches_returned htext indentSize).parseModule (Lens.returned_zero _) ⟨rfl, rfl⟩ ⟨rfl, rfl⟩ path
  refine ⟨hlooks.trans (Module.through_clear _), ?_⟩
  -- The reports come out in the order of their places, so it is enough to have the same ones.
  have hsame : (Grammar.lines (State.ofText text indentSize)).2.reports.map
      (Diagnostic.through (.returned text.toList)) =
        (Grammar.lines (State.ofText (withReturns text) indentSize)).2.reports :=
    hreports.trans (List.map_id' _)
  rw [parseModule, parseModule, State.diagnostics_parseModule, State.diagnostics_parseModule, ← hsame,
    ← List.map_reverse, Diagnostic.sort_map_returned]

end

/-- What is generated of a story and of what is to be seen of it. -/
theorem generate_returned {story : List Char} {a b : Module} {o : ScriptOptions}
    (hindentation : '\r' ∉ o.layout.indentation.toList) (hnewline : '\r' ∉ o.layout.newline.toList)
    (hplain : a.through .plain = a) (hreturned : a.through (.returned story) = b) :
    withoutReturns (generate o b).script = (generate o a).script ∧
      (generate o b).mappings = (generate o a).mappings ∧
      List.Forall₂ Diagnostic.Agrees (generate o a).diagnostics (generate o b).diagnostics := by
  have hscripts := (Rewording.returned story hindentation hnewline).module_scripts hplain hreturned
  refine ⟨?_, ?_, ?_⟩
  · have hwords : Returned ((a.script o).text o.layout).toList ((b.script o).text o.layout).toList :=
      hscripts.text
    rw [generate, generate, withoutReturns, hwords.filter_eq, String.ofList_toList]
  · rw [generate, generate, Rewording.mappings_eq hscripts]
  · have hmissing := Module.incomplete_through (.returned story) a
    rw [hreturned] at hmissing
    rw [generate, generate, hmissing]
    exact Diagnostic.agrees_map_returned ..

/-- **How lines end makes no difference.** A story without carriage returns, and the story with one before
each line feed: the script of the second is the script of the first once its carriage returns are deleted,
the mappings are the same, and what is reported in reading and in writing agrees one by one. -/
theorem generate_withReturns (text path : String) (indentSize : Nat) (o : ScriptOptions)
    (htext : '\r' ∉ text.toList) (hindentation : '\r' ∉ o.layout.indentation.toList)
    (hnewline : '\r' ∉ o.layout.newline.toList) :
    let a := parseModule text path indentSize
    let b := parseModule (withReturns text) path indentSize
    withoutReturns (generate o b.module).script = (generate o a.module).script ∧
      (generate o b.module).mappings = (generate o a.module).mappings ∧
      List.Forall₂ Diagnostic.Agrees a.diagnostics b.diagnostics ∧
      List.Forall₂ Diagnostic.Agrees (generate o a.module).diagnostics (generate o b.module).diagnostics := by
  obtain ⟨hmodule, hreports⟩ := parseModule_withReturns htext path indentSize
  obtain ⟨hscript, hmappings, hmissing⟩ := generate_returned hindentation hnewline
    (parseModule_plain htext path indentSize) hmodule
  refine ⟨hscript, hmappings, ?_, hmissing⟩
  rw [hreports]
  exact Diagnostic.agrees_map_returned ..

/-- A string goes over the end of a line, after a backslash. An expression is missing: this is reported in
reading and in writing. -/
theorem generate_withReturns_string :
    let text := "hero = \"a\\\nb\"\nx = (\n"
    let a := parseModule text "" 2
    let b := parseModule (withReturns text) "" 2
    let o := ScriptOptions.standard
    withReturns text = "hero = \"a\\\r\nb\"\r\nx = (\r\n" ∧
    a.diagnostics.length = 2 ∧ (generate o a.module).diagnostics.length = 1 ∧
    withoutReturns (generate o b.module).script = (generate o a.module).script ∧
    (generate o b.module).mappings = (generate o a.module).mappings ∧
    List.Forall₂ Diagnostic.Agrees a.diagnostics b.diagnostics ∧
    List.Forall₂ Diagnostic.Agrees (generate o a.module).diagnostics (generate o b.module).diagnostics := by
  intro text a b o
  have hreported : a.diagnostics.length = 2 := (List.length_mergeSort _).trans (by decide +kernel)
  exact ⟨by decide +kernel, hreported, by decide +kernel,
    generate_withReturns text "" 2 o (by decide) (by decide) (by decide)⟩

end Story
