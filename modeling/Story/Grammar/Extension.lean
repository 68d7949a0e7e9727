import Story.Grammar.State

/-!
# What reading never takes back

A checkpoint keeps only the *numbers* of diagnostics, imports and known names, and it does not keep
the depth of nesting at all. So coming back to one gives the state it was taken of only if nothing
that had been found by then was dropped in between, and if every level that was opened has been
closed again. This file says once what reading may do to a state:

* `State.Extends` — the relation between the states before and after: tokens are only read, findings
  only added, and the surroundings are the same;
* `State.restore_checkpoint` — coming back from an extension gives exactly the state before it;
* `Step` — the changes of a state that extend it. Whatever is read or recorded is read or recorded by
  one of these.
-/

namespace Story

namespace State

/-! ### Extensions of a state -/

/-- **Reading on.** The second state is the first one with tokens read and things found, in the same
surroundings. -/
structure Extends (s s' : State) : Prop where
  rest : s'.rest <:+ s.rest
  cursor : s'.cursor + s'.rest.length = s.cursor + s.rest.length
  finish : s'.finish = s.finish
  reports : s.reports <:+ s'.reports
  imports : s.imports <:+ s'.imports
  locals : s.locals <:+ s'.locals
  blocks : s'.blocks = s.blocks
  depth : s'.depth = s.depth
  indentSize : s'.indentSize = s.indentSize

namespace Extends

variable {s t u : State}

theorem refl (s : State) : s.Extends s :=
  ⟨List.suffix_rfl, rfl, rfl, List.suffix_rfl, List.suffix_rfl, List.suffix_rfl, rfl, rfl, rfl⟩

theorem trans (h : s.Extends t) (h' : t.Extends u) : s.Extends u where
  rest := h'.rest.trans h.rest
  cursor := h'.cursor.trans h.cursor
  finish := h'.finish.trans h.finish
  reports := h.reports.trans h'.reports
  imports := h.imports.trans h'.imports
  locals := h.locals.trans h'.locals
  blocks := h'.blocks.trans h.blocks
  depth := h'.depth.trans h.depth
  indentSize := h'.indentSize.trans h.indentSize

theorem cursor_le (h : s.Extends t) : s.cursor ≤ t.cursor := by
  have hc := h.cursor
  have hl := h.rest.length_le
  omega

/-- Reading tokens, and nothing else, is an extension. -/
theorem of_rest {ts : List Token} {n : Nat} (h : ts <:+ s.rest)
    (hn : n + ts.length = s.cursor + s.rest.length) :
    s.Extends { s with rest := ts, cursor := n } :=
  { refl s with rest := h, cursor := hn }

end Extends

/-! ### Coming back -/

/-- What was found first is still there, at the end of the list. -/
theorem earliest_length {α : Type} {before after : List α} (h : before <:+ after) :
    earliest before.length after = before :=
  (List.suffix_iff_eq_drop.mp h).symm

/-- **A checkpoint undoes an extension.** The numbers in the checkpoint determine the lists, because
an extension has them as its earliest parts; the depth, which the checkpoint lacks, is the same
anyway. -/
theorem restore_checkpoint {s s' : State} (h : s.Extends s') : s'.restore s.checkpoint = s := by
  simp only [restore, checkpoint, earliest_length h.reports, earliest_length h.imports,
    earliest_length h.locals, h.finish, h.depth, h.indentSize]

/-- Names are made known on top of those known before, so forgetting all that came later is exact.
-/
theorem forgetLocals_of_extends {s s' : State} (h : s.Extends s') :
    s'.forgetLocals s.locals.length = { s' with locals := s.locals } := by
  rw [forgetLocals, earliest_length h.locals]

/-! ### The changes that readers are made of -/

theorem extends_advance (s : State) : s.Extends s.advance := by
  unfold advance
  split
  · exact .refl s
  · next t ts h =>
    refine .of_rest ?_ ?_
    · rw [h]
      exact List.suffix_cons t ts
    · rw [h, List.length_cons]
      omega

theorem extends_advanceBy (n : Nat) (s : State) : s.Extends (advanceBy n s) := by
  induction n generalizing s with
  | zero => exact .refl s
  | succ n ih => exact (extends_advance s).trans (ih s.advance)

theorem extends_skipWhile (p : Token → Bool) (s : State) : s.Extends (s.skipWhile p) := by
  refine .of_rest (List.dropWhile_suffix p) ?_
  have h := congrArg List.length (List.takeWhile_append_dropWhile (p := p) (l := s.rest))
  rw [List.length_append] at h
  omega

theorem extends_reportAt (s : State) (span : Span) (m : Message) (arguments : List String) :
    s.Extends (s.reportAt span m arguments) :=
  { Extends.refl s with reports := List.suffix_cons _ _ }

theorem extends_skipComment (s : State) : s.Extends s.skipComment := by
  have h2 := extends_advanceBy 2 s
  unfold skipComment
  dsimp only
  split
  · exact h2.trans (extends_advanceBy _ _)
  · exact (h2.trans (extends_advanceBy _ _)).trans (extends_reportAt _ _ _ _)

theorem extends_skipTrivia (multiline : Bool) (s : State) :
    s.Extends (s.skipTrivia multiline) := by
  fun_induction skipTrivia multiline s with
  | case1 => exact .refl _
  | case2 s _ _ _ _ ih => exact (extends_advance s).trans ih
  | case3 s _ _ _ _ _ _ ih => exact (extends_skipWhile _ s).trans ih
  | case4 s _ _ _ _ _ _ _ ih => exact (extends_skipComment s).trans ih
  | case5 => exact .refl _
  | case6 => exact .refl _

end State

/-- A change of the state that extends it. -/
structure Step where
  /-- The state after it. -/
  apply : State → State
  extended : ∀ s : State, s.Extends (apply s)

namespace Step

/-- Read one token. -/
def advance : Step := ⟨State.advance, State.extends_advance⟩

/-- Read `n` tokens. -/
def advanceBy (n : Nat) : Step := ⟨State.advanceBy n, State.extends_advanceBy n⟩

/-- Read spaces and tabs. -/
def skipBlanks : Step := ⟨State.skipBlanks, State.extends_skipWhile _⟩

/-- Read up to the end of the line. -/
def skipLine : Step := ⟨State.skipLine, State.extends_skipWhile _⟩

/-- Read blanks and comments and, if `multiline`, ends of lines. -/
def skipTrivia (multiline : Bool) : Step :=
  ⟨State.skipTrivia multiline, State.extends_skipTrivia multiline⟩

/-- Record a diagnostic about a span. -/
def reportAt (span : Span) (m : Message) (arguments : List String) : Step :=
  ⟨(·.reportAt span m arguments), fun s => State.extends_reportAt s span m arguments⟩

/-- Record a diagnostic about the current token. -/
def report (m : Message) (arguments : List String) : Step :=
  ⟨(·.report m arguments), fun s => State.extends_reportAt s s.current.span m arguments⟩

/-- Make a name known as a script variable. -/
def declare (name : String) : Step :=
  ⟨(·.declare name), fun s => { State.Extends.refl s with locals := List.suffix_cons _ _ }⟩

/-- Record an import. -/
def addImport (value : Import) : Step :=
  ⟨(·.addImport value), fun s => { State.Extends.refl s with imports := List.suffix_cons _ _ }⟩

end Step

end Story
