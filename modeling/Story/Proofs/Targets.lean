import Story.Proofs.Reports

/-!
# Targets of assignments

An assignment to what is no place to assign to is reported at its operator. The script that is written has
precedence, and there the left side of an assignment is the operand right before it, if that is the first
operand or another assignment stands before it; anywhere else the left side is an operation. The operators before
an operand apply to all that is put on it, so the left side of `!a.b = c` is an operation too. Here there is
no precedence, and what is looked at is all that has been read so far.

* `Grammar.isPlace` — an operand is something that a script can assign to;
* `Chain.isTarget` — so is what the script assigns to;
* `Chain.isTaken` — what is taken for a target. At the first operator of a chain that is the operand, by its last
  suffix. After that all that has been read so far is an operation, unless a member or an index has been put on
  it;
* `Grammar.Adds` — the suffixes of an expression, as they are read and put on it one after the other;
* `Grammar.assignment_reported` — an assignment is reported exactly if what stands before it is not taken for
  a target. So `a = b = c` is reported (`Grammar.chained_assignment_reported`), and `a + b.c = d` and `!a.b = c`
  are not.
-/

namespace Story

open Story.Parser Story.Grammar

/-! ### Targets -/

/-- Whether the expression is a member or an index of another one. -/
def Grammar.isReference : Expression → Bool
  | .member .. | .index .. => true
  | _ => false

namespace Grammar

/-- **How many `new` are still open after an operand.** A script puts the next suffix on the operand of the last
of them, and a list of arguments closes that one; if none is open, the suffix is put on all of the operand. There is
no answer if an operator before the operand, or an arrow, keeps the whole from having a suffix. -/
def openNews : Expression → Option Nat
  | .number .. | .string .. | .boolean .. | .keyword .. | .name .. | .array .. | .object .. | .paren .. |
    .function .. => some 0
  | .member _ object _ _ | .index _ object _ _ => openNews object
  | .call _ callee _ _ _ => (openNews callee).map (· - 1)
  | .new _ callee brackets _ => (openNews callee).map (· + if brackets.isSome then 0 else 1)
  | .unary .. | .operation .. | .update .. | .binary .. | .conditional .. | .yield .. | .arrowBlock .. |
    .arrowValue .. | .spread .. | .missing .. => none

/-- **Whether a script can assign to an operand.** A member or an index has to be one for a script as well: in
`!a.b` and `new a[0]` it is part of what `!` and `new` apply to. -/
def isPlace (e : Expression) : Bool :=
  isAssignable e && openNews e == some 0

/-- Only members and indexes can look like a place and be none. -/
theorem isPlace_eq_isAssignable {e : Expression} (h : isReference e = false) : isPlace e = isAssignable e := by
  cases e <;> first | rfl | cases h

end Grammar

namespace Chain

/-- **Whether a script may assign to what stands before an operator:** the last operand can be assigned to,
and it is the first one or comes after an assignment. -/
def isTarget : Chain → Bool
  | operand e => isPlace e
  | operation _ previous e => previous.isAssignment && isPlace e
  | conditional .. => false

/-- Whether what stands before an operator is taken for a target. -/
def isTaken : Chain → Bool
  | operand e => isAssignable e
  | operation _ _ e => isReference e
  | conditional .. => false

/-- **Whether the last operand is judged by its form where something else counts.** There are three such kinds: a
member or an index of what only looks like an operand to a script, a member or an index after an operator that does
not assign, and anything else that can be assigned to after one that does. -/
def isMisjudged : Chain → Bool
  | operand e => isReference e && !isPlace e
  | operation _ previous e => if isPlace e then isReference e != previous.isAssignment else isReference e
  | conditional .. => false

theorem isTaken_eq_isTarget_iff (c : Chain) : c.isTaken = c.isTarget ↔ c.isMisjudged = false := by
  cases c with
  | conditional => simp [isTaken, isTarget, isMisjudged]
  | operand e =>
    rw [isTaken, isTarget, isMisjudged]
    cases href : isReference e with
    | false => simp [isPlace_eq_isAssignable href]
    | true =>
      have hform : isAssignable e = true := by cases e <;> first | rfl | cases href
      rw [hform]
      cases isPlace e <;> decide
  | operation before previous e =>
    rw [isTaken, isTarget, isMisjudged]
    cases isPlace e <;> cases isReference e <;> cases previous.isAssignment <;> decide

/-- A first operand with suffixes put where they belong; each suffix comes with the place where it ends. -/
def ofRow (first : Expression) (row : List (Suffix × Position)) : Chain :=
  row.foldl (fun c x => c.add x.2 x.1) (.operand first)

/-- An expression is judged as the chain of its operands, unless the chain ends with a conditional. -/
def Judges (c : Chain) (e : Expression) : Prop :=
  (∀ before whenTrue whenFalse, c ≠ .conditional before whenTrue whenFalse) → isAssignable e = c.isTaken

/-- **A suffix decides alone how the expression is judged,** if the right side of an operation is neither a
member nor an index. -/
theorem judges_add (c : Chain) (e : Expression) {w : Suffix} (span : Span) (stop : Position)
    (h : ∀ sign operator right, w = .operation sign operator right → isReference right = false) :
    (c.add stop w).Judges (w.attach span e) := by
  intro hlast
  cases w with
  | operation sign operator right => exact (h sign operator right rfl).symm
  | conditional whenTrue whenFalse => exact absurd rfl (hlast c whenTrue whenFalse)
  | member | call | index | update =>
    -- These go with the last operand, and the expression takes the form of the suffix as the operand does.
    cases c with
    | operand | operation => rfl
    | conditional before whenTrue whenFalse => exact absurd rfl (hlast _ _ _)

end Chain

/-! ### Suffixes that are put on -/

namespace Grammar

variable {g : Nested} {multiline : Bool} {start : Position} {s s' t u : State} {e e' : Expression}
  {row : List (Suffix × Position)}

/-- **One suffix after the other:** `Adds g multiline start e s row e' s'` says that the suffixes in `row` are
read on the way from `s` to `s'`, and make `e'` of the expression `e` that starts at `start`. -/
inductive Adds (g : Nested) (multiline : Bool) (start : Position) :
    Expression → State → List (Suffix × Position) → Expression → State → Prop where
  | nil (e : Expression) (s : State) : Adds g multiline start e s [] e s
  | cons {e e' : Expression} {s t s' : State} {w : Suffix} {row : List (Suffix × Position)}
      (h : suffix g multiline true s = (some w, t))
      (hrest : Adds g multiline start (w.attach (t.spanFrom start) e) (w.check e t).2 row e' s') :
      Adds g multiline start e s ((w, t.position) :: row) e' s'

/-- A continuation is a suffix that is put on, or there is none. -/
theorem continuation_cases {r : Round Expression Expression}
    (h : continuation g multiline true start e s = (some r, s')) :
    ((suffix g multiline true s).1 = none ∧ r = .done e ∧ s' = s) ∨
      ∃ w t, suffix g multiline true s = (some w, t) ∧ r = .again (w.attach (t.spanFrom start) e) ∧
        s' = (w.check e t).2 := by
  rcases hw : suffix g multiline true s with ⟨_ | w, t⟩
  · rw [continuation_of_none start e (congrArg Prod.fst hw)] at h
    cases h
    exact .inl ⟨rfl, rfl, rfl⟩
  · rw [continuation_run hw] at h
    cases h
    exact .inr ⟨w, t, rfl, rfl, rfl⟩

/-- **An expression is an operand and all suffixes after it.** -/
theorem expression_adds (h : expression g multiline true s = (some e, s')) :
    ∃ first t row, prefixed g multiline s = (some first, t) ∧ Adds g multiline s.position first t row e s' ∧
      (suffix g multiline true s').1 = none := by
  obtain ⟨start, _, ⟨⟩, h⟩ := bind_eq_some.mp h
  obtain ⟨first, t, hfirst, h⟩ := bind_eq_some.mp h
  refine ⟨first, t, ?_⟩
  -- What the loop has made so far is any expression, so the operand before it is forgotten.
  suffices hloop : ∃ row, Adds g multiline s.position first t row e s' ∧ (suffix g multiline true s').1 = none by
    obtain ⟨row, hadds, hend⟩ := hloop
    exact ⟨row, hfirst, hadds, hend⟩
  change loop (continuation g multiline true s.position) first t = _ at h
  clear hfirst
  fun_induction loop (continuation g multiline true s.position) first t with
  | case1 | case4 => cases h
  | case2 first t result t' hround =>
    cases h
    obtain ⟨hend, hdone, rfl⟩ | ⟨_, _, -, hagain, -⟩ := continuation_cases hround
    · cases hdone
      exact ⟨[], .nil _ _, hend⟩
    · cases hagain
  | case3 first t next t' hround _ ih =>
    obtain ⟨-, hdone, -⟩ | ⟨w, v, hw, hagain, rfl⟩ := continuation_cases hround
    · cases hdone
    · cases hagain
      obtain ⟨row, hadds, hend⟩ := ih h
      exact ⟨_, .cons hw hadds, hend⟩

namespace Adds

theorem extended (h : Adds g multiline start e s row e' s') : s.Extends s' := by
  induction h with
  | nil => exact .refl _
  | cons h _ ih => exact (extends_of_eq (continuation_run h start _)).trans ih

/-- A row can be taken apart at each of its suffixes. -/
theorem split {before after : List (Suffix × Position)} {w : Suffix} {stop : Position}
    (h : Adds g multiline start e s (before ++ (w, stop) :: after) e' s') :
    ∃ e₁ u v, Adds g multiline start e s before e₁ u ∧ suffix g multiline true u = (some w, v) ∧
      Adds g multiline start (w.attach (v.spanFrom start) e₁) (w.check e₁ v).2 after e' s' := by
  induction before generalizing e s with
  | nil =>
    cases h with
    | cons h hrest => exact ⟨e, s, _, .nil e s, h, hrest⟩
  | cons x before ih =>
    cases h with
    | cons h hrest =>
      obtain ⟨e₁, u, v, hbefore, hw, hafter⟩ := ih hrest
      exact ⟨e₁, u, v, .cons h hbefore, hw, hafter⟩

/-- What is reported on the way is told in what is read there. -/
theorem tells [g.Tells] {a : Spot} (h : Adds g multiline start e s row e' s') (hs : s.Placed)
    (ha : a.Onward s.spot) : s.TellsTo a s' := by
  induction h with
  | nil => exact .refl a _
  | @cons e e' s t s' w row h hrest ih =>
    have hrun := continuation_run h start e
    have hround : s.TellsTo a (continuation g multiline true start e s).2 := TellsFrom.told hs ha
    rw [hrun] at hround
    exact .andThen hs ha hround (extends_of_eq hrun) hrest.extended ih

end Adds

/-! ### How an expression is judged -/

/-- What is no member and no index of another expression. -/
abbrev Unattached (e : Expression) : Prop := isReference e = false

theorem inScope_unattached {p : Parser Expression} (h : p.Gives State.Anyhow Unattached) :
    (inScope p).Gives State.Anyhow Unattached := by
  intro s e s' _ he
  obtain ⟨_, he, -⟩ := inScope_eq_some.mp he
  exact h trivial he

theorem arrowFunction_unattached (start : Position) (isAsync : Bool) :
    (arrowFunction g start isAsync multiline).Gives State.Anyhow Unattached := by
  refine inScope_unattached ?_
  refine gives_skip fun _ => gives_skip fun _ => gives_skip fun _ => ?_
  refine gives_skip fun _ => gives_skip fun body => ?_
  cases body with
  | some => exact gives_skip fun _ => gives_pure rfl
  | none =>
    refine gives_skip fun _ => gives_skip fun _ => gives_skip fun _ => ?_
    exact gives_pure rfl

theorem functionExpression_unattached (start : Position) (isAsync : Bool) :
    (functionExpression g start isAsync multiline).Gives State.Anyhow Unattached := by
  refine gives_skip fun _ => gives_skip fun _ => gives_skip fun isGenerator => ?_
  refine gives_skip fun _ => gives_skip fun _ => gives_skip fun _ => ?_
  exact gives_pure rfl

theorem number_unattached : number.Gives State.Anyhow Unattached := by
  refine gives_skip fun s => gives_skip fun _ => gives_skip fun _ => ?_
  exact gives_pure rfl

theorem wordOperand_unattached : (wordOperand g multiline).Gives State.Anyhow Unattached := by
  have hasync : (asyncFunction g multiline).Gives State.Anyhow Unattached := by
    refine Gives.rewind ?_
    refine gives_skip fun start => gives_skip fun _ => gives_skip fun _ => ?_
    refine gives_skip fun _ => ?_
    exact gives_ite (fun _ => functionExpression_unattached start true) fun _ => arrowFunction_unattached start true
  refine gives_skip fun s => gives_ite (fun _ => number_unattached) fun _ => ?_
  refine gives_ite (fun _ => gives_skip fun _ => gives_pure rfl) fun _ => ?_
  split
  · exact gives_skip fun _ => gives_pure rfl
  · refine gives_ite (fun _ => functionExpression_unattached _ _) fun _ => gives_ite (fun _ => hasync) fun _ => ?_
    exact gives_skip fun _ => (arrowFunction_unattached _ _).orElse (gives_skip fun _ => gives_pure rfl)

theorem plainOperand_unattached : (plainOperand g multiline).Gives State.Anyhow Unattached := by
  -- Literals and what is in brackets are made by constructors of their own.
  have hstring (quote : Quote) : (stringLiteral g quote).Gives State.Anyhow Unattached := by
    refine gives_skip fun _ => gives_skip fun _ => gives_skip fun _ => ?_
    exact gives_pure rfl
  have hparen : (parenExpression g).Gives State.Anyhow Unattached := by
    refine gives_skip fun _ => gives_skip fun _ => gives_skip fun _ => ?_
    refine gives_skip fun _ => gives_skip fun _ => gives_skip fun _ => ?_
    refine gives_skip fun _ => ?_
    exact gives_pure rfl
  refine gives_skip fun s => ?_
  split
  · exact wordOperand_unattached
  · exact gives_skip fun _ => number_unattached
  · refine gives_skip fun _ => gives_skip fun _ => gives_skip fun _ => ?_
    refine gives_skip fun _ => gives_skip fun _ => ?_
    exact gives_pure rfl
  · exact hstring .single
  · exact hstring .double
  · exact hstring .backtick
  · exact (arrowFunction_unattached _ _).orElse hparen
  · refine gives_skip fun _ => gives_skip fun _ => gives_skip fun _ => ?_
    exact gives_pure rfl
  · refine gives_skip fun _ => gives_skip fun _ => gives_skip fun _ => ?_
    exact gives_pure rfl
  · exact gives_fail

/-- **An operand by itself is neither a member nor an index:** these are put on it after it. -/
theorem prefixed_unattached : (prefixed g multiline).Gives State.Anyhow Unattached := by
  -- A `new` around an operand is neither of the two either.
  have hnew (callee : Expression) (start : Position) :
      (newTail g multiline callee start).Gives State.Anyhow Unattached := by
    refine gives_skip fun _ => gives_skip fun list => ?_
    rcases list with _ | ⟨_, _⟩ <;> exact gives_skip fun _ => gives_pure rfl
  have hoperand : (operand g multiline).Gives State.Anyhow Unattached := by
    refine gives_skip fun starts => ?_
    refine plainOperand_unattached.bind fun _ h => ?_
    exact gives_foldlM (fun callee start _ => hnew callee start) starts h
  refine gives_skip fun s => gives_ite (fun _ => ?_) fun _ => ?_
  · refine gives_skip fun _ => gives_skip fun _ => gives_skip fun _ => ?_
    refine gives_skip fun _ => ?_
    exact gives_pure rfl
  split
  · refine gives_skip fun _ => gives_skip fun _ => gives_skip fun _ => ?_
    refine gives_skip fun _ => gives_skip fun _ => ?_
    exact gives_pure rfl
  split
  · refine gives_skip fun _ => gives_skip fun _ => gives_skip fun _ => ?_
    refine gives_skip fun _ => gives_skip fun _ => gives_skip fun _ => ?_
    exact gives_pure rfl
  · refine gives_ite (fun _ => ?_) fun _ => hoperand
    refine gives_skip fun _ => gives_skip fun _ => gives_skip fun _ => ?_
    refine gives_skip fun _ => gives_skip fun _ => ?_
    exact gives_pure rfl

theorem Adds.judges {c : Chain} (h : Adds g multiline start e s row e' s') (hc : c.Judges e) :
    (row.foldl (fun c x => c.add x.2 x.1) c).Judges e' := by
  induction h generalizing c with
  | nil => exact hc
  | @cons e e' s t s' w row h hrest ih =>
    -- How the chain is judged before the suffix does not matter, so `hc` is only for the empty row.
    refine ih (Chain.judges_add c e _ _ ?_)
    rintro sign operator right rfl
    obtain ⟨_, _, _, _, -, -, heq, hright⟩ := operationSuffix_cases (suffix_operation h rfl)
    cases heq
    exact gives_skip (fun _ => prefixed_unattached) (R := State.Anyhow) trivial hright

/-! ### Reports about one sign -/

/-- A report about the target of the assignment whose operator stands there. -/
def Reported (reports : List Diagnostic) (sign : Span) : Prop :=
  ∃ d ∈ reports, d.code = some 1011 ∧ d.span = sign

/-- A token takes some room. -/
theorem offset_lt_advance (hu : u.Placed) (hrest : u.rest ≠ []) :
    u.position.offset < u.advance.position.offset :=
  hu.spot.offset_lt (State.extends_advance u).onward (State.length_advance_lt hrest)

/-- What is told in text before a token is not told of the token. -/
theorem not_reported_of_before {a : Spot} {reports : List Diagnostic} (hu : u.Placed) (hrest : u.rest ≠ [])
    (ha : a.Placed) (htold : ∀ d ∈ reports, d.ToldIn a u.spot) : ¬Reported reports u.current.span := by
  rintro ⟨d, hd, hcode, hspan⟩
  obtain ⟨b, c, hab, hbc, hcu, hplace⟩ := (htold d hd).between hcode
  have hle : c.position.offset ≤ u.position.offset := (ha.onward (hab.trans hbc)).offset_le hcu
  have hstop : c.position = u.advance.position :=
    congrArg Span.stop (hplace.symm.trans (hspan.trans hu.span_current))
  rw [hstop] at hle
  exact absurd hle (Nat.not_le.mpr (offset_lt_advance hu hrest))

/-- What is told in text after a token is not told of the token. -/
theorem not_reported_of_after {b : Spot} {reports : List Diagnostic} (hu : u.Placed) (hrest : u.rest ≠ [])
    (htold : ∀ d ∈ reports, d.ToldIn u.advance.spot b) : ¬Reported reports u.current.span := by
  rintro ⟨d, hd, -, hspan⟩
  obtain ⟨_, c, e, hc, -, -, hplace⟩ := (htold d hd).after
  have hle : u.advance.position.offset ≤ c.position.offset :=
    (hu.extended (State.extends_advance u)).spot.offset_le hc
  have hstart : c.position = u.position :=
    congrArg Span.start (hplace.symm.trans (hspan.trans hu.span_current))
  rw [hstart] at hle
  exact absurd hle (Nat.not_le.mpr (offset_lt_advance hu hrest))

theorem reported_append {ds ds' : List Diagnostic} {sign : Span} :
    Reported (ds ++ ds') sign ↔ Reported ds sign ∨ Reported ds' sign := by
  simp only [Reported, List.mem_append, or_and_right, exists_or]

/-- While an operation is read nothing is reported about its sign: the sign is a token `u`, what is told before
it is told in text before it, and what is told after it in text after it. -/
theorem operation_tells [g.Tells] {sign : Span} {operator : BinaryOperator} {right : Expression} (hs : s.Placed)
    (hst : s.Extends t) (htold : s.TellsTo s.spot t)
    (h : suffix g multiline true t = (some (.operation sign operator right), s')) :
    ∃ u : State, u.Placed ∧ u.rest ≠ [] ∧ sign = u.current.span ∧ s.TellsTo s.spot u ∧
      u.TellsTo u.advance.spot s' ∧ u.advance.Extends s' := by
  obtain ⟨u, n, _, _, htrivia, hoperator, heq, hright⟩ := operationSuffix_cases (suffix_operation h rfl)
  cases heq
  have htu : t.Extends u := extends_of_eq htrivia
  have hu : u.Placed := hs.extended (hst.trans htu)
  have hafter : u.advance.Placed := hu.extended (State.extends_advance u)
  have hlater : u.advance.Extends s' := (State.extends_advanceBy n u.advance).trans (extends_of_eq hright)
  -- Before the sign there is only trivia.
  have htrivial : t.TellsTo s.spot u := by
    have hrun : t.TellsTo s.spot (trivia multiline t).2 := TellsFrom.told (hs.extended hst) hst.onward
    rwa [htrivia] at hrun
  -- After the sign and the other signs of the operator comes its operand.
  have hoperand : (u.advance.advanceBy n).TellsTo u.advance.spot s' := by
    have hrun : (u.advance.advanceBy n).TellsTo u.advance.spot
        ((do trivia multiline; prefixed g multiline) (u.advance.advanceBy n)).2 :=
      TellsFrom.told (hafter.extended (State.extends_advanceBy n _)) (State.extends_advanceBy n _).onward
    rwa [hright] at hrun
  have hsigns : u.TellsTo u.advance.spot (u.advance.advanceBy n) :=
    .of_reports_eq ((State.reports_advanceBy n _).trans (State.reports_advance u))
  exact ⟨u, hu, (operatorAt?_eq_some hoperator).1, rfl, htold.trans htrivial htu,
    hsigns.trans hoperand (extends_of_eq hright), hlater⟩

/-- All that is reported about the sign of an operation is what the check reports. -/
theorem Adds.reported_iff [g.Tells] {added : List Diagnostic} {before after : List (Suffix × Position)}
    {sign : Span} {operator : BinaryOperator} {right : Expression} {stop : Position} (hs : s.Placed)
    (hst : s.Extends t) (htold : s.TellsTo s.spot t)
    (h : Adds g multiline start e t (before ++ (.operation sign operator right, stop) :: after) e' s')
    (hadded : s'.reports = added ++ s.reports) :
    ∃ e₁ u, Adds g multiline start e t before e₁ u ∧
      (Reported added sign ↔ operator.isAssignment = true ∧ isAssignable e₁ = false) := by
  obtain ⟨e₁, v, w, hbefore, hw, hafter⟩ := h.split
  refine ⟨e₁, v, hbefore, ?_⟩
  have ht := hs.extended hst
  have htv := hbefore.extended
  obtain ⟨u, hu, hrest, rfl, ⟨early, hearly, htoldEarly⟩, ⟨late, hlate, htoldLate⟩, huw⟩ :=
    operation_tells hs (hst.trans htv) (htold.trans (hbefore.tells ht hst.onward) htv) hw
  -- The check adds at most its own report, and what comes after is about text after the sign.
  have hcheck : ((Suffix.operation u.current.span operator right).check e₁ w).2 =
      if operator.isAssignment && !isAssignable e₁ then w.reportAt u.current.span .invalidTarget [] else w := by
    rw [Suffix.check]
    split <;> rfl
  have hplaced : ((Suffix.operation u.current.span operator right).check e₁ w).2.Placed :=
    (hu.extended (State.extends_advance u)).extended (huw.trans (Parser.extended _ w))
  obtain ⟨rest, hreports, htoldRest⟩ := hafter.tells hplaced (huw.trans (Parser.extended _ w)).onward
  rw [hcheck] at hreports
  have hnone : ¬Reported rest u.current.span ∧ ¬Reported late u.current.span ∧ ¬Reported early u.current.span :=
    ⟨not_reported_of_after hu hrest htoldRest, not_reported_of_after hu hrest htoldLate,
      not_reported_of_before hu hrest hs.spot htoldEarly⟩
  split at hreports
  · next hbad =>
    have hall : added = rest ++ (.of .invalidTarget u.current.span [] :: (late ++ early)) := by
      refine List.append_cancel_right (hadded.symm.trans (hreports.trans ?_))
      simp [State.reportAt, hlate, hearly]
    have hreported : Reported added u.current.span :=
      ⟨.of .invalidTarget u.current.span [], by simp [hall], rfl, rfl⟩
    simpa [hreported] using hbad
  · next hgood =>
    have hall : added = rest ++ (late ++ early) := by
      refine List.append_cancel_right (hadded.symm.trans (hreports.trans ?_))
      simp [hlate, hearly]
    have hreported : ¬Reported added u.current.span := by
      rw [hall, reported_append, reported_append]
      simp [hnone]
    simpa [hreported] using hgood

/-! ### Assignments in a chain -/

/-- **Which assignments are reported.** An expression is an operand `first` and the suffixes `row` after it, and
these are all that follow. Of the operators in `row`, those are reported that assign to what is not taken for a
target. This is what a script asks for, except where the operand before the operator is misjudged. -/
theorem assignment_reported {multiline : Bool} {s s' : State} {e : Expression} (hs : s.Placed)
    (hdepth : s.depth < nestingLimit) (h : outermost.expression multiline true s = (some e, s')) :
    ∃ first t row u added,
      prefixed outermost multiline { s with depth := s.depth + 1 } = (some first, t) ∧
      Adds outermost multiline s.position first t row e u ∧ (suffix outermost multiline true u).1 = none ∧
      s' = { u with depth := s.depth } ∧ s'.reports = added ++ s.reports ∧
      ∀ before sign operator right stop after,
        row = before ++ (.operation sign operator right, stop) :: after →
        (∀ b x y, Chain.ofRow first before ≠ .conditional b x y) →
        (Reported added sign ↔ operator.isAssignment = true ∧ (Chain.ofRow first before).isTaken = false) ∧
        (operator.isAssignment = true →
          ((Reported added sign ↔ (Chain.ofRow first before).isTarget = false) ↔
            (Chain.ofRow first before).isMisjudged = false)) := by
  have htells : outermost.Tells := nested_tells nestingLimit
  -- The readers are the productions one level further in.
  rw [outermost_eq] at h
  have hguarded := rewind_eq_some.mp h
  rw [guarded, state_bind_run, if_pos hdepth] at hguarded
  obtain ⟨u, hinner, rfl⟩ := deeper_eq_some.mp hguarded
  have hplaced : State.Placed { s with depth := s.depth + 1 } := { hs with }
  obtain ⟨first, t, row, hfirst, hadds, hend⟩ := expression_adds hinner
  obtain ⟨added, hadded⟩ := (extends_of_eq hinner).reports
  refine ⟨first, t, row, u, added, hfirst, hadds, hend, rfl, hadded.symm, ?_⟩
  rintro before sign operator right stop after rfl hlast
  -- Reports of the first operand count as told before the sign.
  have htold : State.TellsTo s.spot { s with depth := s.depth + 1 }
      (prefixed outermost multiline { s with depth := s.depth + 1 }).2 := TellsFrom.told hplaced (.refl _)
  rw [hfirst] at htold
  obtain ⟨e₁, v, hbefore, hreported⟩ :=
    Adds.reported_iff hplaced (extends_of_eq hfirst) htold hadds hadded.symm
  have hjudged : isAssignable e₁ = (Chain.ofRow first before).isTaken :=
    hbefore.judges (c := .operand first) (fun _ => rfl) hlast
  rw [hjudged] at hreported
  refine ⟨hreported, fun hassigns => ?_⟩
  rw [hreported, ← Chain.isTaken_eq_isTarget_iff]
  simp only [hassigns, true_and]
  cases (Chain.ofRow first before).isTaken <;> cases (Chain.ofRow first before).isTarget <;> simp

/-- Three assignments in a row: one to a name, one to a member and one to a sum. -/
theorem assignment_reported_row :
    ∃ s e s', s = State.ofText "a = b.c = d + e = f" 4 ∧ s.Placed ∧ s.depth < nestingLimit ∧
      outermost.expression false true s = (some e, s') ∧
      ∃ first t row u added,
        Adds outermost false s.position first t row e u ∧ s'.reports = added ++ s.reports ∧
        ∀ before sign operator right stop after,
          row = before ++ (.operation sign operator right, stop) :: after →
          (∀ b x y, Chain.ofRow first before ≠ .conditional b x y) →
          (Reported added sign ↔ operator.isAssignment = true ∧ (Chain.ofRow first before).isTaken = false) := by
  have hplaced : (State.ofText "a = b.c = d + e = f" 4).Placed := State.placed_ofText _ _
  have hdepth : (State.ofText "a = b.c = d + e = f" 4).depth < nestingLimit := by decide +kernel
  have hsome : (outermost.expression false true (State.ofText "a = b.c = d + e = f" 4)).1.isSome = true := by
    decide +kernel
  obtain ⟨e, he⟩ := Option.isSome_iff_exists.mp hsome
  have hrun : outermost.expression false true (State.ofText "a = b.c = d + e = f" 4) =
      (some e, (outermost.expression false true (State.ofText "a = b.c = d + e = f" 4)).2) := by rw [← he]
  obtain ⟨first, t, row, u, added, -, hadds, -, -, hadded, hjudged⟩ := assignment_reported hplaced hdepth hrun
  refine ⟨_, e, _, rfl, hplaced, hdepth, hrun, first, t, row, u, added, hadds, hadded, ?_⟩
  intro before sign operator right stop after hrow hlast
  exact (hjudged before sign operator right stop after hrow hlast).1

/-- **A script's own rule is not kept.** The second assignment of `a = b = c` is reported, although a script
allows it; the assignments to a sum in `a + b.c = d` and to the value of an operator in `!a.b = c` are not, although
a script does not allow them. -/
theorem chained_assignment_reported :
    (∃ d ∈ (parseModule "* a = b = c\n" "test.st" 4).diagnostics, d.code = some 1011 ∧ d.span.start.offset = 8) ∧
      (¬∃ d ∈ (parseModule "* a + b.c = d\n" "test.st" 4).diagnostics, d.code = some 1011) ∧
      ¬∃ d ∈ (parseModule "* !a.b = c\n" "test.st" 4).diagnostics, d.code = some 1011 := by
  simp only [parseModule, State.mem_diagnostics]
  decide +kernel

end Grammar

end Story
