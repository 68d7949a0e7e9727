import Story.Grammar.Module
import Story.Proofs.Outcomes

/-!
# Failing without a trace, succeeding with progress

The contract of the four readers that a story is read by: a line, a statement, an expression, and an
operand with what is attached to it.

* A reader that *fails* leaves exactly the state that it was given: tokens, diagnostics, imports,
  known names, open blocks and the depth of nesting.
* A reader that *succeeds* leaves blocks and depth as they were and only adds to what was found
  before; from depth zero it has read at least one token.

The first half is `Parser.rewind_eq_none`, and what is kept is what every parser keeps. What needs an
argument of its own is progress (`Parser.Consumes`): beyond the last level of nesting a reader succeeds
without reading anything, so progress is a matter of which production comes first and of how many
levels are left when it does. An expression opens one level and reads its first token at that level;
a statement may open a second one for the expression that it is.

Main result: `readers_disciplined`.
-/

namespace Story

/-! ### Tokens that are there -/

namespace State

variable {s : State}

/-- At anything but the end of the file there is a token left. -/
theorem rest_ne_nil_of_kind (h : s.kind ≠ .endfile) : s.rest ≠ [] := by
  intro hr
  apply h
  simp [kind, current, hr, Token.endfile]

theorem rest_ne_nil_of_kind_eq {kind : TokenKind} (h : s.kind = kind) (hk : kind ≠ .endfile) :
    s.rest ≠ [] :=
  rest_ne_nil_of_kind (h ▸ hk)

theorem rest_ne_nil_of_isWord {word : String} (h : s.current.isWord word = true) :
    s.rest ≠ [] := by
  have hk : s.kind = .word := by
    simp only [Token.isWord, Bool.and_eq_true, beq_iff_eq] at h
    exact h.1
  exact rest_ne_nil_of_kind_eq hk (by decide)

theorem cursor_advance_lt (h : s.rest ≠ []) : s.cursor < s.advance.cursor := by
  unfold advance
  split
  · contradiction
  · exact Nat.lt_succ_self _

theorem cursor_advanceBy_lt {n : Nat} (h : s.rest ≠ []) (hn : 0 < n) :
    s.cursor < (advanceBy n s).cursor := by
  cases n with
  | zero => contradiction
  | succ n => exact Nat.lt_of_lt_of_le (cursor_advance_lt h) (extends_advanceBy n _).cursor_le

end State

/-! ### Progress, combinator by combinator -/

namespace Parser

variable {α β σ : Type} {s : State}

/-- If `p` succeeds in this state, it reads at least one token. -/
def Consumes (p : Parser α) (s : State) : Prop :=
  ∀ a s', p s = (some a, s') → s.cursor < s'.cursor

theorem consumes_fail : (fail : Parser α).Consumes s := by
  intro a s' h
  cases h

/-- What is read first is enough: what follows takes nothing back. -/
theorem Consumes.bind {p : Parser α} {f : α → Parser β} (h : p.Consumes s) :
    (p >>= f).Consumes s := by
  intro b s' hb
  obtain ⟨a, t, hp, hf⟩ := bind_eq_some.mp hb
  calc
    s.cursor < t.cursor := h a t hp
    _ ≤ s'.cursor := (extends_of_eq hf).cursor_le

/-- What is read later is enough, whatever was read before it. -/
theorem consumes_bind {p : Parser α} {f : α → Parser β}
    (h : ∀ a t, p s = (some a, t) → (f a).Consumes t) : (p >>= f).Consumes s := by
  intro b s' hb
  obtain ⟨a, t, hp, hf⟩ := bind_eq_some.mp hb
  calc
    s.cursor ≤ t.cursor := (extends_of_eq hp).cursor_le
    _ < s'.cursor := h a t hp b s' hf

@[simp] theorem consumes_look_bind {f : State → α} {k : α → Parser β} :
    (look f >>= k).Consumes s ↔ (k (f s)).Consumes s := Iff.rfl

@[simp] theorem consumes_state_bind {k : State → Parser β} :
    (state >>= k).Consumes s ↔ (k s).Consumes s := Iff.rfl

@[simp] theorem consumes_position_bind {k : Position → Parser β} :
    (position >>= k).Consumes s ↔ (k s.position).Consumes s := Iff.rfl

/-- A condition that is required may be assumed of what follows it. -/
theorem consumes_require_bind {condition : Bool} {k : Unit → Parser β}
    (h : condition = true → (k ()).Consumes s) : (require condition >>= k).Consumes s := by
  refine consumes_bind fun u t hr => ?_
  obtain ⟨hc, rfl⟩ := require_eq_some.mp hr
  exact h hc

theorem consumes_requireState_bind {condition : State → Bool} {k : Unit → Parser β}
    (h : condition s = true → (k ()).Consumes s) : (requireState condition >>= k).Consumes s :=
  consumes_require_bind h

theorem consumes_advance (h : s.rest ≠ []) : (change .advance).Consumes s := by
  intro u s' hu
  cases hu
  exact State.cursor_advance_lt h

theorem consumes_advanceBy {n : Nat} (h : s.rest ≠ []) (hn : 0 < n) :
    (change (.advanceBy n)).Consumes s := by
  intro u s' hu
  cases hu
  exact State.cursor_advanceBy_lt h hn

theorem consumes_token (h : s.rest ≠ []) : token.Consumes s := by
  intro t s' ht
  cases ht
  exact State.cursor_advance_lt h

theorem consumes_eat {kind : TokenKind} (hk : kind ≠ .endfile) : (eat kind).Consumes s := by
  intro t s' ht
  obtain ⟨h, -, rfl⟩ := eat_eq_some.mp ht
  exact State.cursor_advance_lt (State.rest_ne_nil_of_kind_eq h hk)

theorem consumes_eatWord {word : String} : (eatWord word).Consumes s := by
  intro t s' ht
  obtain ⟨h, -, rfl⟩ := eatWord_eq_some.mp ht
  exact State.cursor_advance_lt (State.rest_ne_nil_of_isWord h)

theorem Consumes.rewind {p : Parser α} (h : p.Consumes s) : (rewind p).Consumes s :=
  fun a s' ha => h a s' (rewind_eq_some.mp ha)

theorem Consumes.orElse {p q : Parser α} (hp : p.Consumes s) (hq : q.Consumes s) :
    (p <|> q).Consumes s := by
  intro a s' ha
  obtain h | ⟨-, h⟩ := orElse_eq_some.mp ha
  · exact hp a s' h
  · exact hq a s' h

theorem Consumes.inScope {p : Parser α} (h : p.Consumes s) : (inScope p).Consumes s := by
  intro a s' ha
  obtain ⟨t, ht, rfl⟩ := inScope_eq_some.mp ha
  exact h a t ht

theorem Consumes.deeper {p : Parser α} (h : p.Consumes { s with depth := s.depth + 1 }) :
    (deeper p).Consumes s := by
  intro a s' ha
  obtain ⟨t, ht, rfl⟩ := deeper_eq_some.mp ha
  exact h a t ht

theorem consumes_ite {c : Prop} [Decidable c] {p q : Parser α} (hp : c → p.Consumes s)
    (hq : ¬c → q.Consumes s) : (if c then p else q).Consumes s := by
  split
  · next h => exact hp h
  · next h => exact hq h

/-- A loop reads a token if its first round does. -/
theorem Consumes.repeated {body : σ → Parser (Round σ α)} {a : σ} (h : (body a).Consumes s) :
    (repeated body a).Consumes s := by
  intro r s' hr
  change loop body a s = _ at hr
  rw [loop] at hr
  split at hr
  · cases hr
  · next t ht =>
    cases hr
    exact h _ _ ht
  · next next t ht =>
    have hlt : s.cursor < t.cursor := h _ _ ht
    split at hr
    · -- The later rounds take nothing back.
      have hle := (extends_loop body next t).cursor_le
      rw [hr] at hle
      exact Nat.lt_of_lt_of_le hlt hle
    · cases hr

end Parser

/-! ### Operands -/

namespace Grammar

open Story.Parser

variable {α : Type} {s : State} (g : Nested)

theorem bracketed_consumes {style : ListStyle} {item : List α → Parser α}
    (h : style.opening ≠ .endfile) : (bracketed style item).Consumes s := by
  unfold bracketed
  exact (consumes_eat h).bind

theorem quoted_consumes {quote : TokenKind} (h : s.rest ≠ []) : (quoted g quote).Consumes s := by
  unfold quoted
  exact (consumes_token h).bind

theorem rawName_consumes : rawName.Consumes s := by
  unfold rawName
  rw [consumes_position_bind]
  exact (consumes_eat (by decide)).bind

theorem mantissa_pos (s : State) : 0 < (mantissa s).1 := by
  unfold mantissa
  split
  · exact Nat.zero_lt_succ _
  · split <;> exact Nat.zero_lt_succ _

theorem numberLength_pos (s : State) : 0 < numberLength s := by
  unfold numberLength
  have h := mantissa_pos s
  dsimp only
  split
  · omega
  · exact h

theorem number_consumes (h : s.rest ≠ []) : number.Consumes s := by
  unfold number
  rw [consumes_state_bind]
  exact (consumes_advanceBy h (numberLength_pos s)).bind

theorem stringLiteral_consumes {quote : Quote} (h : s.rest ≠ []) :
    (stringLiteral g quote).Consumes s := by
  unfold stringLiteral
  rw [consumes_look_bind]
  exact (quoted_consumes g h).bind

theorem arrayLiteral_consumes {multiline : Bool} : (arrayLiteral g multiline).Consumes s := by
  unfold arrayLiteral
  rw [consumes_position_bind]
  exact (bracketed_consumes (by simp [bracketList])).bind

theorem objectLiteral_consumes {multiline : Bool} : (objectLiteral g multiline).Consumes s := by
  unfold objectLiteral
  rw [consumes_position_bind]
  exact (bracketed_consumes (by simp [braceList])).bind

theorem parenExpression_consumes : (parenExpression g).Consumes s := by
  unfold parenExpression
  rw [consumes_position_bind]
  exact (consumes_eat (by decide)).bind

theorem functionExpression_consumes {start : Position} {isAsync multiline : Bool} :
    (functionExpression g start isAsync multiline).Consumes s := by
  unfold functionExpression
  exact consumes_eatWord.bind

theorem arrowParameters_consumes {multiline : Bool} : (arrowParameters g multiline).Consumes s := by
  unfold arrowParameters
  rw [consumes_state_bind]
  refine consumes_ite (fun _ => ?_) fun _ => ?_
  · exact (bracketed_consumes (by simp [parenList])).bind
  · exact (consumes_eat (by decide)).bind

theorem arrowFunction_consumes {start : Position} {isAsync multiline : Bool} :
    (arrowFunction g start isAsync multiline).Consumes s := by
  unfold arrowFunction
  exact (arrowParameters_consumes g).bind.inScope

theorem asyncFunction_consumes {multiline : Bool} (h : s.rest ≠ []) :
    (asyncFunction g multiline).Consumes s := by
  unfold asyncFunction
  refine Consumes.rewind ?_
  rw [consumes_position_bind]
  exact (consumes_advance h).bind

theorem wordOperand_consumes {multiline : Bool} (h : s.rest ≠ []) :
    (wordOperand g multiline).Consumes s := by
  unfold wordOperand
  rw [consumes_state_bind]
  -- A number, a truth value, a keyword, a function; whatever else it is starts with a name.
  refine consumes_ite (fun _ => number_consumes h) fun _ => ?_
  refine consumes_ite (fun _ => (consumes_advance h).bind) fun _ => ?_
  split
  · exact (consumes_advance h).bind
  · refine consumes_ite (fun _ => functionExpression_consumes g) fun _ => ?_
    refine consumes_ite (fun _ => asyncFunction_consumes g h) fun _ => ?_
    refine consumes_require_bind fun _ => ?_
    exact (arrowFunction_consumes g).orElse (consumes_advance h).bind

/-- The first token decides what an operand is, and whatever it is that token is read. -/
theorem plainOperand_consumes {multiline : Bool} : (plainOperand g multiline).Consumes s := by
  unfold plainOperand
  rw [consumes_state_bind]
  -- A production that reads its own first sign needs no more; the others are told that it is there.
  have live {kind : TokenKind} (hk : s.kind = kind) (h : kind ≠ .endfile) : s.rest ≠ [] :=
    State.rest_ne_nil_of_kind_eq hk h
  split
  · next hk => exact wordOperand_consumes g (live hk nofun)
  · next hk => exact consumes_require_bind fun _ => number_consumes (live hk nofun)
  · exact rawName_consumes
  · next hk => exact stringLiteral_consumes g (live hk nofun)
  · next hk => exact stringLiteral_consumes g (live hk nofun)
  · next hk => exact stringLiteral_consumes g (live hk nofun)
  · exact (arrowFunction_consumes g).orElse (parenExpression_consumes g)
  · exact arrayLiteral_consumes g
  · exact objectLiteral_consumes g
  · exact consumes_fail

theorem operand_consumes {multiline : Bool} : (operand g multiline).Consumes s := by
  unfold operand
  refine consumes_bind fun starts t _ => ?_
  exact (plainOperand_consumes g).bind

theorem updateOperator_consumes : updateOperator.Consumes s := by
  unfold updateOperator
  rw [consumes_state_bind]
  split
  · next hk _ =>
    exact (consumes_advanceBy (State.rest_ne_nil_of_kind_eq hk (by decide)) (by decide)).bind
  · next hk _ =>
    exact (consumes_advanceBy (State.rest_ne_nil_of_kind_eq hk (by decide)) (by decide)).bind
  · exact consumes_fail

/-- An operator sign is a token. -/
theorem rest_ne_nil_of_unaryOperator {operator : UnaryOperator}
    (h : unaryOperator? s.current = some operator) : s.rest ≠ [] := by
  refine State.rest_ne_nil_of_kind fun hk => ?_
  change s.current.kind = .endfile at hk
  simp [unaryOperator?, hk] at h

theorem rest_ne_nil_of_wordOperator {operator : WordOperator}
    (h : wordOperator? s.current = some operator) : s.rest ≠ [] := by
  refine State.rest_ne_nil_of_kind fun hk => ?_
  change s.current.kind = .endfile at hk
  simp [wordOperator?, Token.isWord, hk] at h

theorem prefixed_consumes {multiline : Bool} : (prefixed g multiline).Consumes s := by
  unfold prefixed
  rw [consumes_state_bind]
  refine consumes_ite (fun _ => ?_) fun _ => ?_
  · -- A doubled sign, one sign, a word that operates, or the operand itself; each reads its first token.
    unfold updateOperand
    rw [consumes_position_bind]
    exact updateOperator_consumes.bind
  split
  · next operator hop =>
    unfold unaryOperand
    rw [consumes_position_bind]
    exact (consumes_advance (rest_ne_nil_of_unaryOperator hop)).bind
  split
  · next operator hop =>
    unfold wordOperation
    rw [consumes_position_bind]
    exact (consumes_advance (rest_ne_nil_of_wordOperator hop)).bind
  refine consumes_ite (fun hy => ?_) fun _ => operand_consumes g
  unfold yieldOperand
  rw [consumes_position_bind]
  exact (consumes_advance (State.rest_ne_nil_of_isWord hy)).bind

theorem expression_consumes {multiline binary : Bool} :
    (expression g multiline binary).Consumes s := by
  unfold expression
  rw [consumes_position_bind]
  exact (prefixed_consumes g).bind

/-! ### Statements -/

theorem codeBlock_consumes {isScoped : Bool} : (codeBlock g isScoped).Consumes s := by
  unfold codeBlock
  rw [consumes_position_bind]
  have h {item : List Statement → Parser Statement} {s : State} :
      (bracketed statementList item).Consumes s :=
    bracketed_consumes (by decide)
  exact consumes_ite (fun _ => h.inScope.bind) fun _ => h.bind

theorem block_consumes {multiline : Bool} : (block g multiline).Consumes s := by
  unfold block
  refine Consumes.rewind (consumes_bind fun _ t _ => ?_)
  rw [consumes_state_bind]
  refine consumes_require_bind fun _ => consumes_ite (fun _ => ?_) fun _ => codeBlock_consumes g
  unfold templateBlock
  exact (consumes_eat (by decide)).bind

theorem functionDeclaration_consumes {multiline : Bool} :
    (functionDeclaration g multiline).Consumes s := by
  unfold functionDeclaration
  rw [consumes_position_bind]
  refine consumes_bind fun _ t _ => consumes_bind fun _ t' _ => ?_
  exact consumes_eatWord.bind

/-- An expression for its effect reads what the nested reader reads. -/
theorem expressionStatement_consumes {multiline : Bool}
    (h : (g.expression multiline true).Consumes s) :
    (expressionStatement g multiline).Consumes s := by
  unfold expressionStatement
  exact h.bind

theorem variableStatement_consumes {multiline : Bool} {t : Token} (h : s.rest ≠ []) :
    (variableStatement g multiline t).Consumes s := by
  unfold variableStatement
  split
  · exact consumes_fail
  · exact (consumes_advance h).bind

/-- A statement that starts with a word reads that word, unless it is an expression. -/
theorem wordStatement_consumes {multiline : Bool} {t : Token} (hs : s.rest ≠ [])
    (he : (g.expression multiline true).Consumes s) :
    (wordStatement g multiline t).Consumes s := by
  -- After a word that opens a statement, what comes next does not matter.
  have opening {α : Type} {k : Position → Unit → Parser α} :
      (position >>= fun start => change .advance >>= k start).Consumes s :=
    consumes_position_bind.mpr (consumes_advance hs).bind
  -- `async` and `function` open a declaration or, if no name follows, an expression.
  have either : (succeeds functionDeclarationAhead >>= fun ahead =>
      if ahead then functionDeclaration g multiline
      else expressionStatement g multiline).Consumes s := by
    refine consumes_bind fun ahead t ht => ?_
    rw [succeeds_run] at ht
    cases ht
    exact consumes_ite (fun _ => functionDeclaration_consumes g) fun _ =>
      expressionStatement_consumes g he
  unfold wordStatement
  split
  -- declarations of variables, then of functions
  iterate 3 exact variableStatement_consumes g hs
  iterate 2 exact either
  -- from `if` to `do`, and `for` with the names that it forgets again
  iterate 6 exact opening
  · exact opening.inScope
  -- `try`, `throw` and `import`, then the jumps
  iterate 3 exact opening
  iterate 2 exact Consumes.bind opening
  · exact opening
  · exact (consumes_advance hs).bind
  · exact expressionStatement_consumes g he

/-- A statement reads its first token, if it does so where it is an expression. -/
theorem statement_consumes {multiline : Bool} (h : (g.expression multiline true).Consumes s) :
    (statement g multiline).Consumes s := by
  unfold statement bareStatement
  refine Consumes.bind ?_
  rw [consumes_look_bind]
  split
  · exact (block_consumes g).bind
  · next hk => exact (consumes_advance (State.rest_ne_nil_of_kind_eq hk nofun)).bind
  · next hk => exact wordStatement_consumes g (State.rest_ne_nil_of_kind_eq hk nofun) h
  · exact expressionStatement_consumes g h

/-! ### Lines -/

theorem splice_consumes : (splice g).Consumes s := by
  unfold splice
  exact (consumes_eat (by decide)).bind

theorem starOrSplice_consumes {c : Content} (h : s.rest ≠ []) :
    (starOrSplice g c).Consumes s := by
  unfold starOrSplice
  rw [consumes_look_bind]
  intro r s' hr
  obtain ⟨part, t, hp, hr⟩ := bind_eq_some.mp hr
  obtain ⟨value, rfl, hv⟩ | ⟨rfl, -, rfl⟩ := attempt_eq_some.mp hp
  · -- The splice succeeds, or it fails and its sign is taken for text.
    calc
      s.cursor < t.cursor := splice_consumes g _ _ hv
      _ ≤ s'.cursor := (extends_of_eq hr).cursor_le
  · exact (consumes_advance h).bind _ _ hr

theorem textRound_consumes {c : Content} (h : s.isLineEnd = false) :
    (textRound g c).Consumes s := by
  have hs : s.rest ≠ [] := by
    refine State.rest_ne_nil_of_kind fun hk => ?_
    rw [State.isLineEnd, hk] at h
    cases h
  unfold textRound
  rw [consumes_state_bind]
  refine consumes_ite (fun hl => absurd hl (by simp [h])) fun _ => ?_
  refine consumes_ite (fun _ => (consumes_advance hs).bind) fun _ => ?_
  exact consumes_ite (fun _ => (starOrSplice_consumes g hs).bind) fun _ =>
    (consumes_advance hs).bind

theorem objectKey_consumes : (objectKey g).Consumes s := by
  unfold objectKey
  rw [consumes_look_bind]
  refine consumes_ite (fun hk => ?_) fun _ => ?_
  · refine consumes_require_bind fun _ => ?_
    exact (consumes_advance (State.rest_ne_nil_of_kind_eq hk nofun)).bind
  · refine consumes_require_bind fun hk => ?_
    exact (quoted_consumes g (State.rest_ne_nil_of_kind_eq (beq_iff_eq.mp hk) nofun)).bind

/-- A line reads a token at any depth: what it starts with is never nested. -/
theorem line_consumes : (line g).Consumes s := by
  unfold line
  refine Consumes.rewind ?_
  refine Consumes.orElse ?_ <| Consumes.orElse ?_ <| Consumes.orElse ?_ <|
    Consumes.orElse ?_ <| Consumes.orElse ?_ ?_
  -- Each kind of line starts with its indentation, which may be none, so what counts comes after it.
  all_goals refine consumes_position_bind.mpr (consumes_bind fun indent t _ => ?_)
  · exact (consumes_eat (by decide)).bind
  · exact consumes_eatWord.bind
  · rw [consumes_position_bind]
    exact (objectKey_consumes g).bind
  · exact (consumes_eat (by decide)).bind
  · refine consumes_requireState_bind fun h => ?_
    have hk : t.kind = .slash := by
      simp only [State.atLineComment, Bool.and_eq_true, beq_iff_eq] at h
      exact h.1
    exact (consumes_advanceBy (State.rest_ne_nil_of_kind_eq hk nofun) (by decide)).bind
  · refine consumes_requireState_bind fun h => ?_
    exact (textRound_consumes g (by simpa using h)).repeated.bind

/-! ### Levels -/

/-- As long as a level is left to open, the reader one level further in is the one that reads. -/
theorem guarded_consumes {inner instead : Parser α} (hs : s.depth < nestingLimit)
    (h : inner.Consumes { s with depth := s.depth + 1 }) : (guarded inner instead).Consumes s := by
  unfold guarded
  rw [consumes_state_bind, if_pos hs]
  exact h.deeper

theorem nested_expression_consumes {n : Nat} {multiline binary : Bool}
    (hs : s.depth < nestingLimit) : ((nested (n + 1)).expression multiline binary).Consumes s :=
  (guarded_consumes hs (expression_consumes (nested n))).rewind

theorem nested_expression_rewinds (n : Nat) (multiline binary : Bool) :
    ∃ p, (nested n).expression multiline binary = rewind p := by
  cases n <;> exact ⟨_, rfl⟩

theorem nested_statement_rewinds (n : Nat) (multiline : Bool) :
    ∃ p, (nested n).statement multiline = rewind p := by
  cases n <;> exact ⟨_, rfl⟩

/-- A statement takes one level and, where it is an expression, a second one. -/
theorem nested_statement_consumes {n : Nat} {multiline : Bool} (hs : s.depth + 1 < nestingLimit) :
    ((nested (n + 2)).statement multiline).Consumes s :=
  (guarded_consumes (Nat.lt_of_succ_lt hs)
    (statement_consumes (nested (n + 1)) (nested_expression_consumes hs))).rewind

end Grammar

/-! ### The readers of a story -/

namespace Parser

/-- **The contract of a reader** in a state. -/
structure Disciplined (p : Parser α) (s : State) : Prop where
  /-- A failure leaves no trace. -/
  failed : ∀ s', p s = (none, s') → s' = s
  /-- A success leaves the surroundings as they were and keeps what was found before. -/
  kept : ∀ a s', p s = (some a, s') → s'.depth = s.depth ∧ s'.blocks = s.blocks ∧
    s.reports.reverse <+: s'.reports.reverse ∧ s.imports.reverse <+: s'.imports.reverse ∧
    s.locals.reverse <+: s'.locals.reverse
  /-- With all levels left to open, a success has read something. -/
  progress : s.depth = 0 → p.Consumes s

/-- A parser that is rewound keeps the contract, if it reads something at depth zero. -/
theorem Disciplined.of_rewind {p q : Parser α} {s : State} (hp : p = rewind q)
    (h : s.depth = 0 → p.Consumes s) : p.Disciplined s where
  failed s' hr := by
    rw [hp] at hr
    exact (rewind_eq_none.mp hr).2
  kept a s' hr := by
    have he : s.Extends s' := extends_of_eq hr
    exact ⟨he.depth, he.blocks, List.reverse_prefix.mpr he.reports,
      List.reverse_prefix.mpr he.imports, List.reverse_prefix.mpr he.locals⟩
  progress := h

end Parser

open Story.Parser Story.Grammar in
/-- **The readers of a story are disciplined.** In every state in which as many levels are left as may
still be opened, a line, a statement, an expression and an operand with what is attached to it keep
the contract of a reader. -/
theorem readers_disciplined (n : Nat) (s : State) (multiline : Bool)
    (h : nestingLimit ≤ n + s.depth) :
    (line (nested n)).Disciplined s ∧ ((nested n).statement multiline).Disciplined s ∧
      ((nested n).expression multiline true).Disciplined s ∧
      ((nested n).expression multiline false).Disciplined s := by
  -- At depth zero two levels are left, which is as many as a statement needs.
  have two_left (hs : s.depth = 0) : (∃ m, n = m + 2) ∧ s.depth + 1 < nestingLimit := by
    simp only [nestingLimit] at h ⊢
    exact ⟨⟨n - 2, by omega⟩, by omega⟩
  have expressions (binary : Bool) : ((nested n).expression multiline binary).Disciplined s := by
    obtain ⟨p, hp⟩ := nested_expression_rewinds n multiline binary
    refine .of_rewind hp fun hs => ?_
    obtain ⟨⟨m, rfl⟩, hd⟩ := two_left hs
    exact nested_expression_consumes (Nat.lt_of_succ_lt hd)
  have statements : ((nested n).statement multiline).Disciplined s := by
    obtain ⟨p, hp⟩ := nested_statement_rewinds n multiline
    refine .of_rewind hp fun hs => ?_
    obtain ⟨⟨m, rfl⟩, hd⟩ := two_left hs
    exact nested_statement_consumes hd
  exact ⟨.of_rewind rfl fun _ => line_consumes (nested n), statements, expressions true,
    expressions false⟩

open Story.Parser Story.Grammar in
/-- Before a story the readers at the outermost level keep the contract. -/
theorem readers_disciplined_outermost :
    nestingLimit ≤ nestingLimit + (State.ofText "* f(`a" 4).depth ∧
      (line outermost).Disciplined (State.ofText "* f(`a" 4) :=
  ⟨Nat.le_add_right _ _, (readers_disciplined nestingLimit _ true (Nat.le_add_right _ _)).1⟩

end Story
