import Story.Proofs.Suffixes

/-!
# Chains of operands

An expression is read as if its operands, its operators and all that follows an operand were one flat row:
each continuation is put on everything before it. A reader that groups what it reads would rather put a
member, a call, an index or an update on the operand that it belongs to. Both read the same suffixes, and both
write the same text.

* `State.SameAhead` — states with the same tokens to come and the same surroundings, whatever has been
  read before. `Grammar.suffix_together` — from there suffixes are read that are written the same;
* `Chain` — operands with the operators between them. `Grammar.chain` reads one, and puts each suffix on the
  operand that it belongs to;
* `Grammar.expression_written` — what a continuation adds is decided by what is ahead and never by the
  expression that it is put on; and an expression is written as the chain of its operands. What is ahead
  includes tokens that the continuation does not read (`Grammar.continuation_looks_ahead`).
-/

namespace Story

open Story.Parser

/-! ### The same ahead -/

/-- What a token is, wherever it stands. -/
def Token.word (t : Token) : TokenKind × String := (t.kind, t.text)

namespace State

/-- **The same is ahead.** The tokens that are left are of the same kinds and have the same texts, the same
names are known, and the surroundings are the same. -/
structure SameAhead (s t : State) : Prop where
  tokens : s.rest.map Token.word = t.rest.map Token.word
  locals : s.locals = t.locals
  blocks : s.blocks = t.blocks
  depth : s.depth = t.depth
  indentSize : s.indentSize = t.indentSize

/-- Two readers that start here and there and do not look at places. -/
def startingAt (s t : State) : Likeness := ⟨.placeless, .placeless, s, t, fun _ _ => rfl⟩

namespace SameAhead

variable {s t : State}

theorem length_eq (h : s.SameAhead t) : s.rest.length = t.rest.length := by
  simpa using congrArg List.length h.tokens

/-- Reports are not ahead. -/
theorem of_reports (h : s.SameAhead t) (reports reports' : List Diagnostic) :
    SameAhead { s with reports := reports } { t with reports := reports' } := { h with }

theorem toMatches (h : s.SameAhead t) : s.Matches (startingAt s t) t where
  rest := by
    -- Tokens are compared by their kinds and texts; where they stand is not looked at.
    have hall {ts us : List Token} (htokens : ts.map Token.word = us.map Token.word) :
        List.Forall₂ (Token.Matches (startingAt s t)) ts us := by
      induction ts generalizing us with
      | nil => cases us with
        | nil => exact .nil
        | cons => cases htokens
      | cons x xs ih => cases us with
        | nil => cases htokens
        | cons y ys =>
          obtain ⟨hword, hrest⟩ := List.cons.inj htokens
          obtain ⟨hkind, htext⟩ := Prod.mk.inj hword
          exact .cons ⟨hkind, .inl htext, htext, fun _ => htext, rfl, rfl⟩ (ih hrest)
    exact hall h.tokens
  finish := rfl
  cursor := Nat.add_comm ..
  reports := .refl ..
  imports := .refl ..
  locals := h.locals
  blocks := h.blocks
  depth := h.depth
  indentSize := h.indentSize

end SameAhead

theorem Matches.sameAhead {s t u v : State} (h : s.Matches (startingAt u v) t) : s.SameAhead t where
  tokens := by
    have hall {ts us : List Token} (htokens : List.Forall₂ (Token.Matches (startingAt u v)) ts us) :
        ts.map Token.word = us.map Token.word := by
      induction htokens with
      | nil => rfl
      | cons hxy _ ih => exact congrArg₂ List.cons (congrArg₂ Prod.mk hxy.kind hxy.chars) ih
    exact hall h.rest
  locals := h.locals
  blocks := h.blocks
  depth := h.depth
  indentSize := h.indentSize

end State

namespace Grammar

variable {g : Nested} {multiline : Bool}

/-- Where the same is ahead, readers that mirror each other read the same. -/
theorem together_of_twins {p : Parser Expression} (hp : ∀ k, Twins k p p) :
    Together State.SameAhead (fun e e' => e.written = e'.written) p p := by
  intro s t hst
  obtain ⟨hvalue, hstate⟩ := hp _ hst.toMatches
  refine ⟨?_, hstate.sameAhead⟩
  generalize (p s).1 = x at hvalue
  generalize (p t).1 = y at hvalue
  cases hvalue with
  | none => exact .none
  | some halike => exact .some (Expression.written_eq halike)

/-! ### Suffixes that are read -/

section

variable {binary : Bool} {s s' : State} (start : Position) (e : Expression)

theorem continuation_of_none (h : (suffix g multiline binary s).1 = none) :
    continuation g multiline binary start e s = (some (.done e), s) := by
  rw [continuation_eq]
  exact bind_eq_some.mpr ⟨none, s, attempt_eq_some.mpr (.inr ⟨rfl, h, rfl⟩), rfl⟩

theorem continuation_of_some {w : Suffix} (h : suffix g multiline binary s = (some w, s')) :
    ∃ reports, continuation g multiline binary start e s =
      (some (.again (w.attach (s'.spanFrom start) e)), { s' with reports := reports }) := by
  obtain ⟨reports, hput⟩ := w.putOn_run start e s'
  rw [continuation_eq]
  exact ⟨reports, bind_eq_some.mpr ⟨some w, s', attempt_eq_some.mpr (.inl ⟨w, rfl, h⟩),
    bind_eq_some.mpr ⟨_, _, hput, rfl⟩⟩⟩

end

/-- **Where the same is ahead, suffixes are read that are written the same.** -/
theorem suffix_together (hg : ∀ k, g.Twins k g) (multiline binary : Bool) :
    Together State.SameAhead (Option.Rel fun w w' : Suffix => w.written = w'.written)
      (attempt (suffix g multiline binary)) (attempt (suffix g multiline binary)) := by
  intro s t hst
  -- The suffixes are put on one and the same expression; that they are written the same then shows.
  let e : Expression := .missing (.empty .zero)
  have htext : e.written = .ofText "undefined" := by
    funext o level scope
    simp [e, Expression.written, Writing.ofScript, Writing.ofText, Expression.script]
  have he : Alike (State.startingAt s t) e e := rfl
  have hzero : Alike (State.startingAt s t) Position.zero .zero := rfl
  obtain ⟨hround, hstate⟩ := continuation_twins (hg _) multiline binary he hzero hst.toMatches
  rcases hs : suffix g multiline binary s with ⟨_ | w, s'⟩ <;>
    rcases ht : suffix g multiline binary t with ⟨_ | w', t'⟩
  · rw [TogetherAt, attempt_eq_some.mpr (.inr ⟨rfl, congrArg Prod.fst hs, rfl⟩),
      attempt_eq_some.mpr (.inr ⟨rfl, congrArg Prod.fst ht, rfl⟩)]
    exact ⟨.some .none, hst⟩
  · obtain ⟨_, ht'⟩ := continuation_of_some .zero e ht
    rw [continuation_of_none _ _ (congrArg Prod.fst hs), ht'] at hround
    obtain ⟨⟨⟩⟩ := hround
  · obtain ⟨_, hs'⟩ := continuation_of_some .zero e hs
    rw [continuation_of_none _ _ (congrArg Prod.fst ht), hs'] at hround
    obtain ⟨⟨⟩⟩ := hround
  · obtain ⟨_, hs'⟩ := continuation_of_some .zero e hs
    obtain ⟨_, ht'⟩ := continuation_of_some .zero e ht
    rw [hs', ht'] at hround hstate
    obtain ⟨⟨halike⟩⟩ := hround
    have hwritten := Expression.written_eq halike
    rw [Suffix.written_attach, Suffix.written_attach, htext] at hwritten
    rw [TogetherAt, attempt_eq_some.mpr (.inl ⟨w, rfl, hs⟩), attempt_eq_some.mpr (.inl ⟨w', rfl, ht⟩)]
    exact ⟨.some (.some (Writing.append_left_cancel hwritten)), hstate.sameAhead.of_reports _ _⟩

end Grammar

/-! ### Chains -/

/-- **Operands and what stands between them.** Each operand has what is attached to it. -/
inductive Chain where
  /-- A first operand. -/
  | operand (e : Expression)
  /-- An operator, and one more operand. -/
  | operation (before : Chain) (operator : BinaryOperator) (right : Expression)
  /-- The two values of a conditional; what follows belongs to the second. -/
  | conditional (before : Chain) (whenTrue whenFalse : Expression)

namespace Chain

/-- What a chain is written as: its operands, and the operators between them. -/
def written : Chain → Writing
  | operand e => e.written
  | operation before operator right =>
    before.written ++ .ofText (" " ++ operator.spelling ++ " ") ++ right.written
  | conditional before whenTrue whenFalse =>
    before.written ++ .ofText " ? " ++ whenTrue.written ++ .ofText " : " ++ whenFalse.written

/-- Change the last operand. -/
def onLast (f : Expression → Expression) : Chain → Chain
  | operand e => operand (f e)
  | operation before operator right => operation before operator (f right)
  | conditional before whenTrue whenFalse => conditional before whenTrue (f whenFalse)

/-- Put a suffix, which ends at `stop`, where it belongs. -/
def add (stop : Position) (c : Chain) : Suffix → Chain
  | .operation _ operator right => operation c operator right
  | .conditional whenTrue whenFalse => conditional c whenTrue whenFalse
  | w => c.onLast fun e => w.attach ⟨e.span.start, stop⟩ e

theorem written_onLast {f : Expression → Expression} {w : Writing} (h : ∀ e, (f e).written = e.written ++ w)
    (c : Chain) : (c.onLast f).written = c.written ++ w := by
  cases c <;> simp only [onLast, written, h, Writing.append_assoc]

/-- **A suffix is written at the end of the chain,** wherever it is put. -/
theorem written_add (stop : Position) (c : Chain) (w : Suffix) :
    (c.add stop w).written = c.written ++ w.written := by
  cases w with
  | operation | conditional => simp only [add, written, Suffix.written, Writing.append_assoc]
  | _ => exact written_onLast (fun e => Suffix.written_attach _ _ e) c

end Chain

namespace Grammar

/-- One more suffix, if there is one. -/
def chainRound (g : Nested) (multiline : Bool) (c : Chain) : Parser (Round Chain Chain) := do
  match ← attempt (suffix g multiline true) with
  | some w => return .again (c.add (← position) w)
  | none => return .done c

/-- **An expression, with each suffix on the operand that it belongs to.** -/
def chain (g : Nested) (multiline : Bool) : Parser Chain := do
  let first ← prefixed g multiline
  repeated (chainRound g multiline) (.operand first)

variable {g : Nested}

/-- An expression and a chain that are written the same go on with suffixes that are written the same. -/
theorem continuation_chainRound (hg : ∀ k, g.Twins k g) (multiline : Bool) (start : Position) {e : Expression}
    {c : Chain} (h : e.written = c.written) :
    Together State.SameAhead (Round.Rel (fun e c => e.written = c.written) fun e c => e.written = c.written)
      (continuation g multiline true start e) (chainRound g multiline c) := by
  rw [continuation_eq]
  refine (suffix_together hg multiline true).bind fun x y hxy => ?_
  cases hxy with
  | none => exact fun _ _ hst => ⟨.some (.done h), hst⟩
  -- Putting a suffix on only adds reports, and those do not count here.
  | @some w w' hwritten =>
    intro s t hst
    obtain ⟨reports, hput⟩ := w.putOn_run start e s
    rw [TogetherAt, bind_eq_some.mpr ⟨_, _, hput, rfl⟩]
    refine ⟨.some (.again ?_), hst.of_reports _ t.reports⟩
    rw [Suffix.written_attach, Chain.written_add, h, hwritten]

theorem expression_chain (hg : ∀ k, g.Twins k g) (multiline : Bool) :
    Together State.SameAhead (fun e c => e.written = c.written) (expression g multiline true)
      (chain g multiline) := by
  intro s t hst
  have hfirst := together_of_twins fun k => prefixed_twins (hg k) multiline
  -- The expression starts where the state does, and the chain has no need to know.
  have hexpression : expression g multiline true s =
      (prefixed g multiline >>= repeated (continuation g multiline true s.position)) s := look_bind_run ..
  rw [TogetherAt, hexpression, chain]
  refine hfirst.bind (fun first first' h => ?_) hst
  exact Together.repeated (fun _ _ h => h.length_eq)
    (fun e c h => continuation_chainRound hg multiline s.position h) h

/-- **What a continuation adds is decided by what is ahead,** and never by the expression that it is put on;
so an expression is written as the chain of its operands. The two parts are about one step and about all. -/
theorem expression_written (n : Nat) (multiline : Bool) :
    (∀ (binary : Bool) (s : State),
      (∀ t, s.SameAhead t → ∀ start e,
        continuation (nested n) multiline binary start e t = (some (.done e), t)) ∨
      ∃ (w : Writing) (s' : State), ∀ t, s.SameAhead t → ∀ start e, ∃ e' t',
        continuation (nested n) multiline binary start e t = (some (.again e'), t') ∧ s'.SameAhead t' ∧
          e'.written = e.written ++ w) ∧
    ∀ s t, s.SameAhead t →
      Option.Rel (fun e c => e.written = c.written) (expression (nested n) multiline true s).1
        (chain (nested n) multiline t).1 ∧
      (expression (nested n) multiline true s).2.SameAhead (chain (nested n) multiline t).2 := by
  refine ⟨fun binary s => ?_, fun s t hst => expression_chain (fun k => nested_twins n) multiline hst⟩
  -- A suffix that is read from `s` is read, up to places, wherever the same is ahead; so is the lack of one.
  have htogether := suffix_together (fun k => nested_twins (k := k) n) multiline binary
  rcases hs : suffix (nested n) multiline binary s with ⟨_ | w, s'⟩
  · refine .inl fun t hst start e => continuation_of_none start e ?_
    have hround := (htogether hst).1
    rw [attempt_eq_some.mpr (.inr ⟨rfl, congrArg Prod.fst hs, rfl⟩)] at hround
    rcases ht : suffix (nested n) multiline binary t with ⟨_ | w', t'⟩
    · rfl
    · rw [attempt_eq_some.mpr (.inl ⟨w', rfl, ht⟩)] at hround
      obtain ⟨⟨⟩⟩ := hround
  · refine .inr ⟨w.written, s', fun t hst start e => ?_⟩
    obtain ⟨hround, hstate⟩ := htogether hst
    rw [attempt_eq_some.mpr (.inl ⟨w, rfl, hs⟩)] at hround hstate
    rcases ht : suffix (nested n) multiline binary t with ⟨_ | w', t'⟩
    · rw [attempt_eq_some.mpr (.inr ⟨rfl, congrArg Prod.fst ht, rfl⟩)] at hround
      obtain ⟨⟨⟩⟩ := hround
    · rw [attempt_eq_some.mpr (.inl ⟨w', rfl, ht⟩)] at hround hstate
      obtain ⟨⟨hwritten⟩⟩ := hround
      obtain ⟨reports, hrun⟩ := continuation_of_some start e ht
      refine ⟨_, _, hrun, hstate.of_reports s'.reports reports, ?_⟩
      rw [Suffix.written_attach, hwritten]

/-- A member of a sum, in two texts: it is written as a sum whose second operand has a member. -/
theorem expression_written_sum :
    (State.ofText "a + b.c" 4).SameAhead (State.ofText "!a + b.c" 4).advance ∧
      (expression (nested 3) false true (State.ofText "a + b.c" 4)).1.isSome = true ∧
      Option.Rel (fun e c => e.written = c.written) (expression (nested 3) false true (State.ofText "a + b.c" 4)).1
        (chain (nested 3) false (State.ofText "!a + b.c" 4).advance).1 := by
  have hahead : (State.ofText "a + b.c" 4).SameAhead (State.ofText "!a + b.c" 4).advance :=
    ⟨by decide +kernel, by decide +kernel, by decide +kernel, by decide +kernel, by decide +kernel⟩
  exact ⟨hahead, by decide +kernel, ((expression_written 3 false).2 _ _ hahead).1⟩

/-! ### Tokens that are not read -/

/-- The tokens that one continuation of the number `1` reads, and the text that is written then. -/
def continued (s : State) : Option (List (TokenKind × String) × String) :=
  match continuation (nested 199) false true .zero (.number (.empty .zero) "1") s with
  | (some (.again e), s') => some ((s.rest.take (s'.cursor - s.cursor)).map Token.word,
      (e.written ⟨"", 4, ⟨"  ", "\n"⟩⟩ 0 .initial).1)
  | _ => none

/-- After `* x = 1`, a string that holds an unclosed list of parameters, and more. -/
def beforeString (more : String) : State :=
  let text := "* x = 1 + '*function (u = \x7b k: b + async (a = \x60 \x7d) \x7b\x7d '" ++ more
  { (State.ofText text 4).advanceBy 7 with depth := 1 }

/-- **The tokens that a continuation reads do not decide what it adds.** Inside the string an arrow function
is tried whose parameter has a quoted text as its default. In the second state that text and the arrow are
found beyond the end of the string; then the function around them does not close, and the string is plain.
In the first state the arrow function is given up, and the string holds a function. -/
theorem continuation_looks_ahead :
    (beforeString "").locals = (beforeString "\x60) => z").locals ∧
      (beforeString "").blocks = (beforeString "\x60) => z").blocks ∧
      (beforeString "").depth = (beforeString "\x60) => z").depth ∧
      (beforeString "").indentSize = (beforeString "\x60) => z").indentSize ∧
      (continued (beforeString "")).isSome = true ∧
      (continued (beforeString "")).map Prod.fst = (continued (beforeString "\x60) => z")).map Prod.fst ∧
      (continued (beforeString "")).map Prod.snd ≠ (continued (beforeString "\x60) => z")).map Prod.snd := by
  decide +kernel

end Grammar

end Story
