import Mathlib.Logic.ExistsUnique
import Story.Proofs.Loops

/-!
# Recursion ends

The productions of the grammar are written in terms of readers further in, and these are the productions
again. There is a limit to how deep a story may be nested, and the readers are defined by recursion on the
levels that are left of it. This file shows that the limit is not what makes reading end: a production
reads a token before it comes back to itself, so the tokens that are left would do as well.

* `Parser.Agrees` — two parsers do the same at a level of nesting, where fewer than so many tokens are
  left; one rule for each combinator. A production in terms of two families of readers does the same
  where *one more* token is left (`Grammar.expression_agrees`, `Grammar.line_agrees`);
* `Grammar.outermost_eq` — the readers of a story are the productions in terms of themselves;
* `Grammar.unlimited_unique`, `Grammar.unlimited_boundless` — without a limit there is exactly one family
  of readers that are the productions in terms of themselves.

A statement that is an expression has read nothing when it comes to it. So statements are treated apart:
they do the same if the expressions do (`Grammar.statement_agrees`).
-/

namespace Story

/-! ### Agreement -/

namespace Parser

variable {α β σ : Type} {d n : Nat} {p q : Parser α}

/-- Parsers that do the same in every state are the same. -/
protected theorem ext (h : ∀ s : State, p s = q s) : p = q := by
  have hrun : p.run = q.run := funext h
  cases p
  cases q
  cases hrun
  rfl

/-- The parsers do the same at the level of nesting `d` wherever fewer than `n` tokens are left. -/
def Agrees (d n : Nat) (p q : Parser α) : Prop :=
  ∀ ⦃s : State⦄, s.depth = d → s.rest.length < n → p s = q s

theorem agrees_refl : p.Agrees d n p := fun _ _ _ => rfl

theorem Agrees.of_le {m : Nat} (h : p.Agrees d n q) (hm : m ≤ n) : p.Agrees d m q :=
  fun _ hd hs => h hd (Nat.lt_of_lt_of_le hs hm)

theorem Agrees.late (h : p.Agrees d (n + 1) q) : p.Agrees d n q := h.of_le (Nat.le_succ n)

/-- Two sequences do the same in a state if their first parts do, and their other parts do after it. -/
theorem bind_congr_at {f f' : α → Parser β} {s : State} (hp : p s = q s)
    (hf : ∀ a t, p s = (some a, t) → f a t = f' a t) : (p >>= f) s = (q >>= f') s := by
  change bindRun p f s = bindRun q f' s
  unfold bindRun
  rw [← hp]
  split
  · rfl
  · next a t h => exact hf a t h

theorem state_bind_congr_at {f f' : State → Parser β} {s : State} (h : f s s = f' s s) :
    (state >>= f) s = (state >>= f') s := h

theorem Agrees.bind {f f' : α → Parser β} (hp : p.Agrees d n q) (hf : ∀ a, (f a).Agrees d n (f' a)) :
    (p >>= f).Agrees d n (q >>= f') := by
  intro s hd hs
  refine bind_congr_at (hp hd hs) fun a t ht => ?_
  have hext : s.Extends t := extends_of_eq ht
  exact hf a (hext.depth.trans hd) (Nat.lt_of_le_of_lt hext.rest.length_le hs)

/-- What is read first is the same. -/
theorem agrees_skip {f f' : α → Parser β} (hf : ∀ a, (f a).Agrees d n (f' a)) :
    (p >>= f).Agrees d n (p >>= f') :=
  agrees_refl.bind hf

/-- **After a token has been read there is one less.** What follows need only do the same where fewer
tokens are left. -/
theorem Agrees.bind_after {f f' : α → Parser β} (hp : p.Agrees d (n + 1) q)
    (hc : ∀ s, p.Consumes s) (hf : ∀ a, (f a).Agrees d n (f' a)) :
    (p >>= f).Agrees d (n + 1) (q >>= f') := by
  intro s hd hs
  refine bind_congr_at (hp hd hs) fun a t ht => ?_
  have hext : s.Extends t := extends_of_eq ht
  have hlt : t.rest.length < s.rest.length := length_lt_of_cursor_lt hext (hc s a t ht)
  exact hf a (hext.depth.trans hd) (by omega)

theorem agrees_after {f f' : α → Parser β} (hc : ∀ s, p.Consumes s)
    (hf : ∀ a, (f a).Agrees d n (f' a)) : (p >>= f).Agrees d (n + 1) (p >>= f') :=
  agrees_refl.bind_after hc hf

theorem agrees_ite {c : Prop} [Decidable c] {p' q' : Parser α} (hp : c → p.Agrees d n q)
    (hq : ¬c → p'.Agrees d n q') : (if c then p else p').Agrees d n (if c then q else q') := by
  split
  · next h => exact hp h
  · next h => exact hq h

theorem Agrees.rewind (h : p.Agrees d n q) : (rewind p).Agrees d n (rewind q) := by
  intro s hd hs
  change rewindRun p s = rewindRun q s
  rw [rewindRun, rewindRun, h hd hs]

theorem Agrees.found (h : p.Agrees d n q) : (found p).Agrees d n (found q) := by
  intro s hd hs
  change (some (p s).1, (p s).2) = (some (q s).1, (q s).2)
  rw [h hd hs]

theorem Agrees.attempt (h : p.Agrees d n q) : (attempt p).Agrees d n (attempt q) := h.rewind.found

theorem Agrees.orElse {p' q' : Parser α} (h : p.Agrees d n q) (h' : p'.Agrees d n q') :
    (p <|> p').Agrees d n (q <|> q') := by
  refine h.attempt.bind fun r => ?_
  cases r with
  | none => exact h'
  | some a => exact agrees_refl

theorem Agrees.withProgress (h : p.Agrees d n q) : (withProgress p).Agrees d n (withProgress q) :=
  agrees_skip fun _ => h.found.bind fun _ => agrees_refl

theorem Agrees.inScope (h : p.Agrees d n q) : (inScope p).Agrees d n (inScope q) := by
  intro s hd hs
  change ((p s).1, (p s).2.forgetLocals _) = ((q s).1, (q s).2.forgetLocals _)
  rw [h hd hs]

theorem Agrees.inBlock (h : p.Agrees d n q) : (inBlock p).Agrees d n (inBlock q) := by
  intro s hd hs
  have hinner : p { s with blocks := s.blocks + 1 } = q { s with blocks := s.blocks + 1 } := h hd hs
  exact congrArg (fun r => (r.1, { r.2 with blocks := r.2.blocks - 1 })) hinner

theorem Agrees.deeper (h : p.Agrees (d + 1) n q) : (deeper p).Agrees d n (deeper q) := by
  intro s hd hs
  have hinner : p { s with depth := s.depth + 1 } = q { s with depth := s.depth + 1 } :=
    h (congrArg (· + 1) hd) hs
  exact congrArg (fun r => (r.1, { r.2 with depth := r.2.depth - 1 })) hinner

/-- Loops do the same if their rounds do. -/
theorem agrees_repeated {body body' : σ → Parser (Round σ α)}
    (h : ∀ a, (body a).Agrees d n (body' a)) (a : σ) :
    (repeated body a).Agrees d n (repeated body' a) := by
  intro s hd hs
  change loop body a s = loop body' a s
  -- By induction on the rounds of the first loop; each is a round of the second one too.
  fun_induction loop body a s with
  | case1 a s s' hround => rw [loop, ← h a hd hs, hround]
  | case2 a s result s' hround => rw [loop, ← h a hd hs, hround]
  | case3 a s next s' hround hguard ih =>
    have hdepth : s'.depth = d := (extends_of_eq hround).depth.trans hd
    have hlength : s'.rest.length < n := Nat.lt_trans hguard hs
    symm
    rw [loop, ← h a hd hs, hround, ih hdepth hlength]
    exact if_pos hguard
  | case4 a s next s' hround hguard =>
    rw [loop, ← h a hd hs, hround]
    exact (if_neg hguard).symm

theorem agrees_foldlM {f f' : β → σ → Parser β} (hf : ∀ b a, (f b a).Agrees d n (f' b a))
    (as : List σ) (b : β) : (as.foldlM f b).Agrees d n (as.foldlM f' b) := by
  induction as generalizing b with
  | nil => exact agrees_refl
  | cons a as ih => exact (hf b a).bind fun b' => ih b'

/-- The parsers do the same at a token, with at most `n` of them left after it. -/
def AgreesAtToken (d n : Nat) (p q : Parser α) : Prop :=
  ∀ ⦃s : State⦄, s.depth = d → s.rest.length < n + 1 → s.rest ≠ [] → p s = q s

theorem agreesAtToken_advance {f f' : Unit → Parser α} (h : (f ()).Agrees d n (f' ())) :
    (change .advance >>= f).AgreesAtToken d n (change .advance >>= f') := by
  intro s hd hs htoken
  refine bind_congr_at rfl fun a t ht => ?_
  cases ht
  have hlt : s.advance.rest.length < s.rest.length := State.length_advance_lt htoken
  exact h ((State.extends_advance s).depth.trans hd) (Nat.lt_of_lt_of_le hlt (Nat.le_of_lt_succ hs))

theorem agreesAtToken_look {look' : State → β} {f f' : β → Parser α}
    (h : ∀ b, (f b).AgreesAtToken d n (f' b)) :
    (look look' >>= f).AgreesAtToken d n (look look' >>= f') :=
  fun s hd hs htoken => h (look' s) hd hs htoken

theorem AgreesAtToken.inScope (h : p.AgreesAtToken d n q) :
    (inScope p).AgreesAtToken d n (inScope q) := by
  intro s hd hs htoken
  change ((p s).1, (p s).2.forgetLocals _) = ((q s).1, (q s).2.forgetLocals _)
  rw [h hd hs htoken]

end Parser

open Story.Parser

/-- The readers do the same at the level of nesting `d` wherever fewer than `n` tokens are left. -/
structure Nested.Agree (d n : Nat) (g g' : Nested) : Prop where
  expression (multiline binary : Bool) :
    (g.expression multiline binary).Agrees d n (g'.expression multiline binary)
  operand (multiline : Bool) : (g.operand multiline).Agrees d n (g'.operand multiline)
  statement (multiline : Bool) : (g.statement multiline).Agrees d n (g'.statement multiline)

namespace Nested

variable {d n : Nat} {g g' : Nested}

theorem agree_zero : g.Agree d 0 g' :=
  ⟨fun _ _ _ _ hs => absurd hs (Nat.not_lt_zero _), fun _ _ _ hs => absurd hs (Nat.not_lt_zero _),
    fun _ _ _ hs => absurd hs (Nat.not_lt_zero _)⟩

theorem Agree.symm (h : g.Agree d n g') : g'.Agree d n g where
  expression m b := fun _ hd hs => (h.expression m b hd hs).symm
  operand m := fun _ hd hs => (h.operand m hd hs).symm
  statement m := fun _ hd hs => (h.statement m hd hs).symm

theorem Agree.trans {g'' : Nested} (h : g.Agree d n g') (h' : g'.Agree d n g'') : g.Agree d n g'' where
  expression m b := fun _ hd hs => (h.expression m b hd hs).trans (h'.expression m b hd hs)
  operand m := fun _ hd hs => (h.operand m hd hs).trans (h'.operand m hd hs)
  statement m := fun _ hd hs => (h.statement m hd hs).trans (h'.statement m hd hs)

theorem Agree.late (h : g.Agree d (n + 1) g') : g.Agree d n g' :=
  ⟨fun m b => (h.expression m b).late, fun m => (h.operand m).late, fun m => (h.statement m).late⟩

/-- Readers that do the same however many tokens are left are the same. -/
theorem eq_of_agree (h : ∀ d n, g.Agree d n g') : g = g' := by
  -- However many tokens are left in a state, there are fewer than one more.
  have hexpression : g.expression = g'.expression := by
    funext m b
    exact Parser.ext fun s => (h s.depth (s.rest.length + 1)).expression m b rfl (Nat.lt_succ_self _)
  have hoperand : g.operand = g'.operand := by
    funext m
    exact Parser.ext fun s => (h s.depth (s.rest.length + 1)).operand m rfl (Nat.lt_succ_self _)
  have hstatement : g.statement = g'.statement := by
    funext m
    exact Parser.ext fun s => (h s.depth (s.rest.length + 1)).statement m rfl (Nat.lt_succ_self _)
  cases g
  cases g'
  cases hexpression
  cases hoperand
  cases hstatement
  rfl

end Nested

namespace Grammar

variable {α : Type} {d n : Nat}

/-! ### Lists -/

section Lists

variable {style : ListStyle} {item item' : List α → Parser α}

theorem listItem_agrees (h : ∀ items, (item items).Agrees d n (item' items)) (p : ListProgress α) :
    (listItem style item p).Agrees d n (listItem style item' p) := by
  unfold listItem
  exact agrees_skip fun _ => (h p.items).attempt.bind fun _ => agrees_refl

theorem listElement_agrees (h : ∀ items, (item items).Agrees d n (item' items)) (p : ListProgress α) :
    (listElement style item p).Agrees d n (listElement style item' p) := by
  unfold listElement
  split
  · exact listItem_agrees h p
  · refine agrees_skip fun s => agrees_ite (fun _ => agrees_refl) fun _ => ?_
    exact agrees_ite (fun _ => agrees_skip fun _ => listItem_agrees h p) fun _ => listItem_agrees h p

/-- The items of a list are read after its bracket. -/
theorem bracketed_agrees (hopening : style.opening ≠ .endfile)
    (h : ∀ items, (item items).Agrees d n (item' items)) :
    (bracketed style item).Agrees d (n + 1) (bracketed style item') := by
  have round (p : ListProgress α) : (listRound style item p).Agrees d n (listRound style item' p) := by
    unfold listRound
    refine agrees_skip fun _ => agrees_skip fun s => agrees_ite (fun _ => agrees_refl) fun _ => ?_
    exact agrees_ite (fun _ => agrees_refl) fun _ => listElement_agrees h p
  unfold bracketed
  refine agrees_after (fun _ => consumes_eat hopening) fun _ => ?_
  exact (agrees_repeated round _).bind fun _ => agrees_refl

end Lists

variable {g g' : Nested}

/-! ### Texts -/

theorem splice_agrees (h : g.Agree d n g') : (splice g).Agrees d (n + 1) (splice g') := by
  unfold splice
  refine agrees_after (fun _ => consumes_eat (by decide)) fun _ => agrees_skip fun _ => ?_
  exact (h.expression false false).bind fun _ => agrees_refl

theorem starOrSplice_agrees (h : g.Agree d n g') (c : Content) :
    (starOrSplice g c).Agrees d (n + 1) (starOrSplice g' c) := by
  unfold starOrSplice
  exact agrees_skip fun _ => (splice_agrees h).attempt.bind fun _ => agrees_refl

theorem textContent_agrees (h : g.Agree d n g') :
    (textContent g).Agrees d (n + 1) (textContent g') := by
  refine agrees_repeated (fun c => ?_) _
  unfold textRound
  -- Of all tokens only a star leads further in, and it is read first.
  refine agrees_skip fun s => agrees_ite (fun _ => agrees_refl) fun _ => ?_
  refine agrees_ite (fun _ => agrees_refl) fun _ => agrees_ite (fun _ => ?_) fun _ => agrees_refl
  exact (starOrSplice_agrees h c).bind fun _ => agrees_refl

theorem quoted_agrees (h : g.Agree d n g') (quote : TokenKind) :
    (quoted g quote).Agrees d (n + 1) (quoted g' quote) := by
  unfold quoted
  refine agrees_skip fun opening => agrees_repeated (fun c => ?_) _
  unfold quotedRound
  refine agrees_skip fun s => agrees_ite (fun _ => agrees_refl) fun _ => ?_
  refine agrees_ite (fun _ => agrees_refl) fun _ => agrees_ite (fun _ => agrees_refl) fun _ => ?_
  refine agrees_ite (fun _ => ?_) fun _ => agrees_refl
  exact (starOrSplice_agrees h c).bind fun _ => agrees_refl

/-! ### Lines -/

theorem objectKey_agrees (h : g.Agree d n g') : (objectKey g).Agrees d (n + 1) (objectKey g') := by
  unfold objectKey
  refine agrees_skip fun t => agrees_ite (fun _ => agrees_refl) fun _ => agrees_skip fun _ => ?_
  exact (quoted_agrees h _).bind fun _ => agrees_refl

theorem prototype_agrees (h : g.Agree d n g') : (prototype g).Agrees d n (prototype g') := by
  unfold prototype
  refine agrees_skip fun _ => agrees_skip fun _ => agrees_ite (fun _ => ?_) fun _ => agrees_refl
  exact agrees_skip fun _ => (h.expression false false).bind fun _ => agrees_refl

theorem tags_agrees (h : g.Agree d n g') : (tags g).Agrees d n (tags g') := by
  -- Of a tag, only its value is read further in.
  have value : (tagValue g).Agrees d n (tagValue g') := by
    unfold tagValue
    refine agrees_skip fun _ => agrees_ite (fun _ => agrees_skip fun _ => ?_) fun _ => agrees_refl
    exact (h.expression false true).bind fun _ => agrees_refl
  have one : (tag g).Agrees d n (tag g') := by
    unfold tag
    refine agrees_skip fun _ => agrees_skip fun _ => agrees_skip fun _ => ?_
    refine agrees_skip fun _ => agrees_skip fun _ => ?_
    refine value.bind fun _ => ?_
    exact agrees_refl
  refine agrees_repeated (fun ts => ?_) _
  unfold tagRound
  exact agrees_skip fun _ => agrees_ite (fun _ => one.bind fun _ => agrees_refl) fun _ => agrees_refl

theorem initializer_agrees (h : g.Agree d n g') : (initializer g).Agrees d n (initializer g') := by
  unfold initializer
  refine agrees_skip fun _ => agrees_ite (fun _ => ?_) fun _ => agrees_refl
  refine agrees_skip fun _ => agrees_skip fun _ => ?_
  refine (h.expression false true).bind fun _ => ?_
  exact agrees_refl

theorem codeBlock_agrees (h : g.Agree d n g') (isScoped : Bool) :
    (codeBlock g isScoped).Agrees d (n + 1) (codeBlock g' isScoped) := by
  have list : (bracketed statementList fun _ => g.statement true).Agrees d (n + 1)
      (bracketed statementList fun _ => g'.statement true) :=
    bracketed_agrees (by decide) fun _ => h.statement true
  unfold codeBlock
  refine agrees_skip fun _ => agrees_ite (fun _ => ?_) fun _ => ?_
  · exact list.inScope.bind fun _ => agrees_refl
  · exact list.bind fun _ => agrees_refl

theorem objectLine_agrees (h : g.Agree d n g') : (objectLine g).Agrees d (n + 1) (objectLine g') := by
  unfold objectLine
  refine agrees_skip fun start => agrees_skip fun indent => agrees_skip fun bodyStart => ?_
  -- The name of the object is there; all that can be nested comes after it.
  refine (objectKey_agrees h).bind_after (fun _ => objectKey_consumes g) fun _ => agrees_skip fun _ => ?_
  refine (prototype_agrees h).bind fun _ => ?_
  refine (tags_agrees h).bind fun _ => ?_
  refine agrees_skip fun _ => ?_
  exact (initializer_agrees h).bind fun _ => agrees_refl

theorem expectStatement_agrees (h : g.Agree d n g') :
    (expectStatement g).Agrees d n (expectStatement g') := by
  unfold expectStatement
  exact (h.statement false).found.bind fun _ => agrees_refl

/-- A line reads a token before anything nested: a star, the word `delete`, a name or some text. -/
theorem line_agrees (h : g.Agree d n g') : (line g).Agrees d (n + 1) (line g') := by
  unfold line
  refine Agrees.rewind ?_
  refine .orElse ?codeBlock (.orElse ?delete (.orElse ?object (.orElse ?statement
    (.orElse agrees_refl ?text))))
  -- A comment has nothing nested in it. The other kinds are all different.
  case codeBlock =>
    unfold codeBlockLine
    refine agrees_skip fun _ => agrees_skip fun _ => agrees_skip fun _ => ?_
    refine (codeBlock_agrees h false).bind fun _ => ?_
    exact agrees_refl
  case delete =>
    unfold deleteLine
    refine agrees_skip fun _ => agrees_skip fun _ => agrees_skip fun _ => ?_
    refine agrees_skip fun _ => ?_
    refine (objectKey_agrees h).bind fun _ => ?_
    exact agrees_refl
  case object => exact objectLine_agrees h
  case statement =>
    unfold statementLine
    refine agrees_skip fun _ => agrees_skip fun _ => ?_
    refine agrees_after (fun _ => consumes_eat (by decide)) fun _ => ?_
    refine agrees_skip fun _ => agrees_skip fun _ => ?_
    refine (expectStatement_agrees h).bind fun _ => ?_
    exact agrees_refl
  case text =>
    unfold textLine
    refine agrees_skip fun _ => agrees_skip fun _ => agrees_skip fun _ => ?_
    refine (textContent_agrees h).bind fun _ => ?_
    exact agrees_refl

theorem templateBlock_agrees (h : g.Agree d n g') :
    (templateBlock g).Agrees d (n + 1) (templateBlock g') := by
  have round (opening : Span) (ls : List Line) :
      (templateRound g opening ls).Agrees d (n + 1) (templateRound g' opening ls) := by
    unfold templateRound
    refine agrees_skip fun _ => agrees_ite (fun _ => agrees_refl) fun _ => agrees_skip fun ending => ?_
    cases ending with
    | none => exact (line_agrees h).withProgress.bind fun _ => agrees_refl
    | some _ => exact agrees_refl
  -- The brace is read before the lines, but they do not need that: each of them reads a token itself.
  unfold templateBlock
  refine agrees_skip fun opening => agrees_skip fun _ => agrees_skip fun _ => ?_
  refine (agrees_repeated (round opening.span) _).inBlock.inScope.bind fun _ => ?_
  exact agrees_refl

theorem block_agrees (h : g.Agree d n g') (multiline : Bool) :
    (block g multiline).Agrees d (n + 1) (block g' multiline) := by
  unfold block
  refine Agrees.rewind (agrees_skip fun _ => agrees_skip fun _ => agrees_skip fun _ => ?_)
  exact agrees_ite (fun _ => templateBlock_agrees h) fun _ => codeBlock_agrees h true

/-! ### Lists of expressions -/

theorem element_agrees (h : g.Agree d n g') (multiline : Bool) :
    (element g multiline).Agrees d n (element g' multiline) := by
  unfold element
  refine agrees_skip fun _ => agrees_ite (fun _ => ?_) fun _ => h.expression multiline true
  exact agrees_skip fun _ => (h.expression multiline true).bind fun _ => agrees_refl

theorem arguments_agrees (h : g.Agree d n g') (multiline : Bool) :
    (arguments g multiline).Agrees d (n + 1) (arguments g' multiline) :=
  bracketed_agrees nofun fun _ => element_agrees h multiline

theorem expectExpression_agrees (h : g.Agree d n g') (multiline : Bool) :
    (expectExpression g multiline).Agrees d n (expectExpression g' multiline) := by
  unfold expectExpression
  exact (h.expression multiline true).found.bind fun _ => agrees_refl

theorem propertyValue_agrees (h : g.Agree d n g') (multiline : Bool) (shorthand : Option Expression) :
    (propertyValue g multiline shorthand).Agrees d n (propertyValue g' multiline shorthand) := by
  unfold propertyValue
  refine agrees_skip fun _ => agrees_ite (fun _ => ?_) fun _ => agrees_refl
  exact agrees_skip fun _ => expectExpression_agrees h multiline

theorem property_agrees (h : g.Agree d n g') (multiline : Bool) :
    (property g multiline).Agrees d n (property g' multiline) := by
  -- Whatever the key of a property looks like, its value is read further in.
  have value (shorthand : Option Expression) := propertyValue_agrees h multiline shorthand
  have word (t : Token) : (wordProperty g multiline t).Agrees d n (wordProperty g' multiline t) := by
    unfold wordProperty
    refine agrees_ite (fun _ => ?_) fun _ => ?_
    · exact agrees_skip fun _ => (value _).bind fun _ => agrees_refl
    · refine agrees_skip fun _ => agrees_skip fun _ => agrees_skip fun _ => ?_
      refine (value _).bind fun _ => ?_
      exact agrees_refl
  have quoted (t : Token) (quote : Quote) :
      (quotedProperty g multiline t quote).Agrees d n (quotedProperty g' multiline t quote) := by
    unfold quotedProperty
    refine (quoted_agrees h _).late.bind fun _ => ?_
    refine agrees_skip fun _ => ?_
    refine (value _).bind fun _ => ?_
    exact agrees_refl
  have computed : (computedProperty g multiline).Agrees d n (computedProperty g' multiline) := by
    unfold computedProperty
    refine agrees_skip fun _ => agrees_skip fun _ => agrees_skip fun _ => ?_
    refine (h.expression true true).bind fun _ => ?_
    refine agrees_skip fun _ => agrees_skip fun _ => ?_
    refine (value _).bind fun _ => ?_
    exact agrees_refl
  unfold property
  refine agrees_skip fun s => agrees_ite (fun _ => ?_) fun _ => ?_
  · exact (element_agrees h multiline).bind fun _ => agrees_refl
  · split
    · exact word _
    · exact quoted _ _
    · exact quoted _ _
    · exact computed
    · exact agrees_refl

/-! ### Functions -/

theorem parameters_agrees (h : g.Agree d n g') (multiline : Bool) :
    (parameters g multiline).Agrees d (n + 1) (parameters g' multiline) := by
  -- Of a parameter, only its default value is read further in.
  have default : (parameterDefault g multiline).Agrees d n (parameterDefault g' multiline) := by
    unfold parameterDefault
    refine agrees_skip fun _ => agrees_skip fun _ => agrees_skip fun _ => ?_
    exact h.expression multiline true
  refine bracketed_agrees nofun fun _ => ?_
  unfold parameter
  refine agrees_skip fun s => agrees_ite (fun _ => ?_) fun _ => ?_
  · refine agrees_skip fun _ => agrees_skip fun _ => agrees_skip fun _ => ?_
    refine agrees_skip fun _ => ?_
    refine default.attempt.bind fun _ => ?_
    exact agrees_refl
  · refine agrees_skip fun _ => agrees_skip fun _ => agrees_skip fun _ => ?_
    refine default.attempt.bind fun _ => ?_
    exact agrees_refl

theorem functionExpression_agrees (h : g.Agree d n g') (start : Position) (isAsync multiline : Bool) :
    (functionExpression g start isAsync multiline).Agrees d (n + 1)
      (functionExpression g' start isAsync multiline) := by
  unfold functionExpression
  refine agrees_skip fun _ => agrees_skip fun _ => agrees_skip fun isGenerator => ?_
  refine agrees_skip fun _ => ?_
  refine Agrees.bind (Agrees.inScope ?_) fun _ => agrees_refl
  refine agrees_skip fun _ => agrees_skip fun _ => ?_
  refine (parameters_agrees h multiline).bind fun _ => ?_
  refine (block_agrees h multiline).bind fun _ => ?_
  exact agrees_refl

theorem arrowParameters_agrees (h : g.Agree d n g') (multiline : Bool) :
    (arrowParameters g multiline).Agrees d (n + 1) (arrowParameters g' multiline) := by
  unfold arrowParameters
  refine agrees_skip fun _ => agrees_ite (fun _ => ?_) fun _ => agrees_refl
  exact (parameters_agrees h multiline).bind fun _ => agrees_refl

theorem arrowFunction_agrees (h : g.Agree d n g') (start : Position) (isAsync multiline : Bool) :
    (arrowFunction g start isAsync multiline).Agrees d (n + 1)
      (arrowFunction g' start isAsync multiline) := by
  unfold arrowFunction
  refine Agrees.inScope ?_
  -- The body is a block or a value, and comes after at least one parameter or bracket.
  refine (arrowParameters_agrees h multiline).bind_after (fun _ => arrowParameters_consumes g)
    fun _ => ?_
  refine agrees_skip fun _ => agrees_skip fun _ => agrees_skip fun _ => ?_
  refine (block_agrees h multiline).late.found.bind fun r => ?_
  cases r with
  | none => exact agrees_skip fun _ => (expectExpression_agrees h multiline).bind fun _ => agrees_refl
  | some _ => exact agrees_refl

theorem asyncFunction_agrees (h : g.Agree d n g') (multiline : Bool) :
    (asyncFunction g multiline).Agrees d (n + 1) (asyncFunction g' multiline) := by
  unfold asyncFunction
  refine Agrees.rewind (agrees_skip fun _ => agrees_skip fun _ => agrees_skip fun _ => ?_)
  exact agrees_skip fun _ => agrees_ite (fun _ => functionExpression_agrees h _ _ _) fun _ =>
    arrowFunction_agrees h _ _ _

/-! ### Operands -/

theorem wordOperand_agrees (h : g.Agree d n g') (multiline : Bool) :
    (wordOperand g multiline).Agrees d (n + 1) (wordOperand g' multiline) := by
  unfold wordOperand
  refine agrees_skip fun s => agrees_ite (fun _ => agrees_refl) fun _ =>
    agrees_ite (fun _ => agrees_refl) fun _ => ?_
  split
  · exact agrees_refl
  · refine agrees_ite (fun _ => functionExpression_agrees h _ _ _) fun _ =>
      agrees_ite (fun _ => asyncFunction_agrees h _) fun _ => agrees_skip fun _ => ?_
    exact (arrowFunction_agrees h _ _ _).orElse agrees_refl

theorem plainOperand_agrees (h : g.Agree d n g') (multiline : Bool) :
    (plainOperand g multiline).Agrees d (n + 1) (plainOperand g' multiline) := by
  -- Each of these reads its opening sign before anything nested, so one token more may be left.
  have string (quote : Quote) : (stringLiteral g quote).Agrees d (n + 1) (stringLiteral g' quote) := by
    unfold stringLiteral
    exact agrees_skip fun _ => (quoted_agrees h _).bind fun _ => agrees_refl
  have array : (arrayLiteral g multiline).Agrees d (n + 1) (arrayLiteral g' multiline) := by
    unfold arrayLiteral
    refine agrees_skip fun _ => Agrees.bind ?_ fun _ => agrees_refl
    exact bracketed_agrees (by simp [bracketList]) fun _ => element_agrees h multiline
  have object : (objectLiteral g multiline).Agrees d (n + 1) (objectLiteral g' multiline) := by
    unfold objectLiteral
    refine agrees_skip fun _ => Agrees.bind ?_ fun _ => agrees_refl
    exact bracketed_agrees (by simp [braceList]) fun _ => property_agrees h multiline
  have paren : (parenExpression g).Agrees d (n + 1) (parenExpression g') := by
    unfold parenExpression
    refine agrees_skip fun _ => agrees_after (fun _ => consumes_eat (by decide)) fun _ => ?_
    exact agrees_skip fun _ => (expectExpression_agrees h true).bind fun _ => agrees_refl
  unfold plainOperand
  refine agrees_skip fun s => ?_
  split
  · exact wordOperand_agrees h multiline
  · exact agrees_refl
  · exact agrees_refl
  iterate 3 exact string _
  · exact (arrowFunction_agrees h _ _ _).orElse paren
  · exact array
  · exact object
  · exact agrees_refl

theorem operand_agrees (h : g.Agree d n g') (multiline : Bool) :
    (operand g multiline).Agrees d (n + 1) (operand g' multiline) := by
  have tail (callee : Expression) (start : Position) :
      (newTail g multiline callee start).Agrees d (n + 1) (newTail g' multiline callee start) := by
    unfold newTail
    exact agrees_skip fun _ => (arguments_agrees h multiline).found.bind fun _ => agrees_refl
  -- Each `new` that was read first gets its arguments after the operand.
  unfold operand
  refine agrees_skip fun starts => ?_
  refine (plainOperand_agrees h multiline).bind fun callee => ?_
  exact agrees_foldlM tail starts callee

/-- An operator is read before its operand. -/
theorem prefixed_agrees (h : g.Agree d n g') (multiline : Bool) :
    (prefixed g multiline).Agrees d (n + 1) (prefixed g' multiline) := by
  have update : (updateOperand g multiline).Agrees d (n + 1) (updateOperand g' multiline) := by
    unfold updateOperand
    refine agrees_skip fun _ => agrees_after (fun _ => updateOperator_consumes) fun _ => ?_
    exact (h.operand multiline).bind fun _ => agrees_refl
  have unary (operator : UnaryOperator) : (unaryOperand g multiline operator).AgreesAtToken d n
      (unaryOperand g' multiline operator) := by
    unfold unaryOperand
    refine agreesAtToken_look fun _ => agreesAtToken_advance (agrees_skip fun _ => ?_)
    exact (h.operand multiline).bind fun _ => agrees_refl
  have word (operator : WordOperator) : (wordOperation g multiline operator).AgreesAtToken d n
      (wordOperation g' multiline operator) := by
    unfold wordOperation
    refine agreesAtToken_look fun _ => agreesAtToken_advance (agrees_skip fun _ => ?_)
    exact agrees_skip fun _ => (h.operand multiline).bind fun _ => agrees_refl
  have yields : (yieldOperand g multiline).AgreesAtToken d n (yieldOperand g' multiline) := by
    have value : (do let _ ← blanks; g.expression multiline true).Agrees d n
        (do let _ ← blanks; g'.expression multiline true) :=
      agrees_skip fun _ => h.expression multiline true
    unfold yieldOperand
    refine agreesAtToken_look fun _ => agreesAtToken_advance (agrees_skip fun _ => ?_)
    exact value.attempt.bind fun _ => agrees_refl
  -- Which of these it is, is seen in the state, so the rest is about one state.
  intro s hd hs
  unfold prefixed
  refine state_bind_congr_at ?_
  by_cases hupdate : atUpdate s = true
  · rw [if_pos hupdate, if_pos hupdate]
    exact update hd hs
  rw [if_neg hupdate, if_neg hupdate]
  cases hunary : unaryOperator? s.current with
  | some operator => exact unary operator hd hs (rest_ne_nil_of_unaryOperator hunary)
  | none =>
    cases hword : wordOperator? s.current with
    | some operator => exact word operator hd hs (rest_ne_nil_of_wordOperator hword)
    | none =>
      dsimp only
      by_cases hyield : s.current.isWord "yield" = true
      · rw [if_pos hyield, if_pos hyield]
        exact yields hd hs (State.rest_ne_nil_of_isWord hyield)
      · rw [if_neg hyield, if_neg hyield]
        exact operand_agrees h multiline hd hs

/-! ### Continuations -/

theorem attached_agrees (h : g.Agree d n g') (multiline : Bool) (start : Position)
    (object : Expression) :
    (attached g multiline start object).Agrees d n (attached g' multiline start object) := by
  -- Of what can be attached, the arguments of a call and an index hold something nested.
  have calls (isOptional : Bool) : (called g multiline object start isOptional).Agrees d n
      (called g' multiline object start isOptional) := by
    unfold called
    exact (arguments_agrees h multiline).late.bind fun _ => agrees_refl
  have indexes (isOptional : Bool) :
      (indexed g object start isOptional).Agrees d n (indexed g' object start isOptional) := by
    unfold indexed
    refine agrees_skip fun _ => agrees_skip fun _ => ?_
    refine (expectExpression_agrees h true).bind fun _ => ?_
    exact agrees_refl
  have attachments (isOptional : Bool) : (attachment g multiline start object isOptional).Agrees d n
      (attachment g' multiline start object isOptional) := by
    unfold attachment
    refine agrees_skip fun kind => ?_
    split
    case h_3 => exact calls isOptional
    case h_4 => exact indexes isOptional
    all_goals exact agrees_refl
  unfold attached
  exact agrees_ite (fun _ => agrees_skip fun _ => agrees_skip attachments) fun _ =>
    agrees_skip attachments

theorem operated_agrees (h : g.Agree d n g') (multiline : Bool) (start : Position)
    (left : Expression) :
    (operated g multiline start left).Agrees d n (operated g' multiline start left) := by
  unfold operated
  refine agrees_skip fun _ => agrees_skip fun s => ?_
  split
  · exact agrees_refl
  · refine agrees_skip fun _ => agrees_skip fun _ => ?_
    refine (prefixed_agrees h multiline).late.bind fun _ => ?_
    exact agrees_refl

theorem conditional_agrees (h : g.Agree d n g') (multiline : Bool) (start : Position)
    (test : Expression) :
    (conditional g multiline start test).Agrees d n (conditional g' multiline start test) := by
  have otherwise : (otherwiseValue g multiline).Agrees d n (otherwiseValue g' multiline) := by
    unfold otherwiseValue
    refine agrees_skip fun _ => agrees_ite (fun _ => ?_) fun _ => agrees_refl
    exact agrees_skip fun _ => expectExpression_agrees h multiline
  unfold conditional
  refine agrees_skip fun _ => agrees_skip fun _ => agrees_skip fun whenTrue => ?_
  refine agrees_skip fun _ => ?_
  refine (h.expression multiline true).bind fun _ => ?_
  refine agrees_skip fun _ => ?_
  refine otherwise.bind fun _ => ?_
  exact agrees_refl

/-- An expression reads its first operand before anything nested, and goes on after it. -/
theorem expression_agrees (h : g.Agree d n g') (multiline binary : Bool) :
    (expression g multiline binary).Agrees d (n + 1) (expression g' multiline binary) := by
  have round (start : Position) (e : Expression) : (continuation g multiline binary start e).Agrees d n
      (continuation g' multiline binary start e) := by
    unfold continuation
    refine Agrees.bind (Agrees.attempt ?_) fun _ => agrees_refl
    refine agrees_ite (fun _ => ?_) fun _ => attached_agrees h multiline start e
    exact (attached_agrees h multiline start e).orElse
      ((operated_agrees h multiline start e).orElse (conditional_agrees h multiline start e))
  -- An expression is never empty: what it goes on with comes after an operand.
  unfold expression
  refine agrees_skip fun start => ?_
  exact (prefixed_agrees h multiline).bind_after (fun _ => prefixed_consumes g)
    (agrees_repeated (round start))

/-! ### Statements -/

theorem expectBlock_agrees (h : g.Agree d n g') (multiline : Bool) :
    (expectBlock g multiline).Agrees d n (expectBlock g' multiline) := by
  unfold expectBlock
  exact (block_agrees h multiline).late.found.bind fun _ => agrees_refl

theorem body_agrees (h : g.Agree d n g') (multiline : Bool) :
    (body g multiline).Agrees d n (body g' multiline) := by
  have single : (do trivia multiline; g.statement multiline).Agrees d n
      (do trivia multiline; g'.statement multiline) :=
    agrees_skip fun _ => h.statement multiline
  unfold body
  refine (block_agrees h multiline).late.found.bind fun r => ?_
  cases r with
  | none => exact single.attempt.bind fun _ => agrees_refl
  | some _ => exact agrees_refl

theorem condition_agrees (h : g.Agree d n g') (multiline : Bool) :
    (condition g multiline).Agrees d n (condition g' multiline) := by
  have item (taken : List Expression) :
      (if taken.isEmpty then g.expression multiline true else fail).Agrees d n
        (if taken.isEmpty then g'.expression multiline true else fail) :=
    agrees_ite (fun _ => h.expression multiline true) fun _ => agrees_refl
  unfold condition
  refine agrees_skip fun _ => Agrees.bind ?_ fun _ => agrees_refl
  exact (bracketed_agrees (by simp [conditionList]) item).late.found

theorem declaration_agrees (h : g.Agree d n g') (multiline withValues : Bool) (keyword : Token) :
    (declaration g multiline withValues keyword).Agrees d n
      (declaration g' multiline withValues keyword) := by
  have value : (declaredValue g multiline).Agrees d n (declaredValue g' multiline) := by
    unfold declaredValue
    refine agrees_skip fun _ => agrees_ite (fun _ => agrees_skip fun _ => ?_) fun _ => agrees_refl
    exact (expectExpression_agrees h multiline).bind fun _ => agrees_refl
  have round (ds : List Declarator) : (declaratorRound g multiline withValues ds).Agrees d n
      (declaratorRound g' multiline withValues ds) := by
    unfold declaratorRound
    refine agrees_skip fun span => agrees_skip fun _ => agrees_skip fun name => ?_
    cases name with
    | none => exact agrees_refl
    | some _ => exact agrees_ite (fun _ => value.bind fun _ => agrees_refl) fun _ => agrees_refl
  unfold declaration
  exact agrees_skip fun _ => (agrees_repeated round _).bind fun _ => agrees_refl

theorem functionDeclaration_agrees (h : g.Agree d n g') (multiline : Bool) :
    (functionDeclaration g multiline).Agrees d (n + 1) (functionDeclaration g' multiline) := by
  have list : (expectParameters g multiline).Agrees d n (expectParameters g' multiline) := by
    unfold expectParameters
    exact (parameters_agrees h multiline).late.found.bind fun _ => agrees_refl
  unfold functionDeclaration
  refine agrees_skip fun isAsync => agrees_skip fun _ => agrees_skip fun _ => ?_
  -- From the word `function` on, one token less is left.
  refine agrees_after (fun _ => consumes_eatWord) fun _ => ?_
  refine agrees_skip fun _ => agrees_skip fun isGenerator => agrees_skip fun _ => ?_
  refine agrees_skip fun name => ?_
  cases name with
  | none => exact agrees_refl
  | some _ =>
    refine Agrees.bind (Agrees.inScope ?_) fun _ => agrees_refl
    refine agrees_skip fun _ => ?_
    refine list.bind fun _ => ?_
    refine (expectBlock_agrees h multiline).bind fun _ => ?_
    exact agrees_refl

/-! What follows the first word of a statement. -/

theorem ifStatement_agrees (h : g.Agree d n g') (multiline : Bool) :
    (ifStatement g multiline).AgreesAtToken d n (ifStatement g' multiline) := by
  unfold ifStatement
  refine agreesAtToken_look fun _ => agreesAtToken_advance ?_
  refine (condition_agrees h multiline).bind fun _ => (body_agrees h multiline).bind fun _ => ?_
  refine agrees_skip fun _ => agrees_ite (fun _ => ?_) fun _ => agrees_refl
  exact (body_agrees h multiline).bind fun _ => agrees_refl

theorem switchStatement_agrees (h : g.Agree d n g') (multiline : Bool) :
    (switchStatement g multiline).AgreesAtToken d n (switchStatement g' multiline) := by
  unfold switchStatement
  refine agreesAtToken_look fun _ => agreesAtToken_advance ?_
  refine (condition_agrees h multiline).bind fun _ => ?_
  refine (expectBlock_agrees h multiline).bind fun _ => ?_
  exact agrees_refl

theorem caseLabel_agrees (h : g.Agree d n g') (multiline : Bool) :
    (caseLabel g multiline).AgreesAtToken d n (caseLabel g' multiline) := by
  unfold caseLabel
  refine agreesAtToken_look fun _ => agreesAtToken_advance (agrees_skip fun _ => ?_)
  exact (h.expression multiline true).bind fun _ => agrees_refl

theorem whileStatement_agrees (h : g.Agree d n g') (multiline : Bool) :
    (whileStatement g multiline).AgreesAtToken d n (whileStatement g' multiline) := by
  unfold whileStatement
  refine agreesAtToken_look fun _ => agreesAtToken_advance ?_
  exact (condition_agrees h multiline).bind fun _ => (body_agrees h multiline).bind fun _ => agrees_refl

theorem doStatement_agrees (h : g.Agree d n g') (multiline : Bool) :
    (doStatement g multiline).AgreesAtToken d n (doStatement g' multiline) := by
  have test : (doCondition g multiline).Agrees d n (doCondition g' multiline) := by
    unfold doCondition
    exact agrees_skip fun _ => agrees_ite (fun _ => condition_agrees h multiline) fun _ => agrees_refl
  unfold doStatement
  refine agreesAtToken_look fun _ => agreesAtToken_advance ?_
  exact (body_agrees h multiline).bind fun _ => test.bind fun _ => agrees_refl

theorem valuesHead_agrees (h : g.Agree d n g') : (valuesHead g).Agrees d n (valuesHead g') := by
  have head : (loopBinding g).Agrees d n (loopBinding g') := by
    unfold loopBinding
    refine agrees_skip fun t => ?_
    split
    · exact agrees_skip fun _ => (declaration_agrees h true false t).bind fun _ => agrees_refl
    · exact (h.expression true false).bind fun _ => agrees_refl
  unfold valuesHead
  refine agrees_skip fun _ => ?_
  refine head.bind fun _ => ?_
  refine agrees_skip fun _ => agrees_skip fun _ => agrees_skip fun _ => ?_
  refine (expectExpression_agrees h true).bind fun _ => ?_
  exact agrees_refl

theorem countingHead_agrees (h : g.Agree d n g') (multiline : Bool) :
    (countingHead g multiline).Agrees d n (countingHead g' multiline) := by
  have start : (countingStart g).Agrees d n (countingStart g') := by
    unfold countingStart
    refine agrees_skip fun t => ?_
    split
    · exact agrees_skip fun _ => (declaration_agrees h true true t).found.bind fun _ => agrees_refl
    · exact (h.expression true true).found.bind fun _ => agrees_refl
  have part := (h.expression true true).found
  unfold countingHead
  refine agrees_skip fun _ => ?_
  refine start.bind fun _ => ?_
  refine agrees_skip fun _ => agrees_skip fun _ => agrees_skip fun _ => ?_
  refine part.bind fun _ => ?_
  refine agrees_skip fun _ => agrees_skip fun closed => agrees_skip fun _ => ?_
  refine part.bind fun _ => ?_
  exact agrees_refl

theorem forStatement_agrees (h : g.Agree d n g') (multiline : Bool) :
    (forStatement g multiline).AgreesAtToken d n (forStatement g' multiline) := by
  -- A loop that counts is tried only if the head is not that of a loop over values.
  have counting (hasHead : Bool) (start : Position) : (countingLoop g multiline hasHead start).Agrees d n
      (countingLoop g' multiline hasHead start) := by
    unfold countingLoop
    refine agrees_ite (fun _ => ?_) fun _ => ?_
    · refine (countingHead_agrees h multiline).bind fun _ => ?_
      refine (body_agrees h multiline).bind fun _ => ?_
      exact agrees_refl
    · exact agrees_skip fun _ => (body_agrees h multiline).bind fun _ => agrees_refl
  have values (hasHead : Bool) : (do require hasHead; valuesHead g).Agrees d n
      (do require hasHead; valuesHead g') :=
    agrees_skip fun _ => valuesHead_agrees h
  unfold forStatement
  refine AgreesAtToken.inScope (agreesAtToken_look fun start => agreesAtToken_advance ?_)
  refine agrees_skip fun _ => agrees_skip fun hasHead => agrees_skip fun _ => ?_
  refine agrees_skip fun hasHead => ?_
  unfold loopAfter
  refine (values hasHead).attempt.bind fun r => ?_
  cases r with
  | none => exact counting hasHead start
  | some r => exact (body_agrees h multiline).bind fun _ => agrees_refl

theorem tryStatement_agrees (h : g.Agree d n g') (multiline : Bool) :
    (tryStatement g multiline).AgreesAtToken d n (tryStatement g' multiline) := by
  have handlers : (handler g multiline).Agrees d n (handler g' multiline) := by
    unfold handler
    refine agrees_skip fun _ => agrees_skip fun _ => agrees_ite (fun _ => ?_) fun _ => agrees_refl
    refine Agrees.bind (Agrees.inScope ?_) fun _ => agrees_refl
    refine agrees_skip fun _ => agrees_skip fun _ => agrees_ite (fun _ => ?_) fun _ => ?_
    all_goals exact agrees_skip fun _ => (expectBlock_agrees h multiline).bind fun _ => agrees_refl
  have finalizers : (finalizer g multiline).Agrees d n (finalizer g' multiline) := by
    unfold finalizer
    refine agrees_skip fun _ => agrees_skip fun _ => agrees_ite (fun _ => ?_) fun _ => agrees_refl
    exact (expectBlock_agrees h multiline).bind fun _ => agrees_refl
  unfold tryStatement
  refine agreesAtToken_look fun _ => agreesAtToken_advance ?_
  refine (expectBlock_agrees h multiline).bind fun _ => ?_
  refine handlers.bind fun _ => ?_
  refine finalizers.bind fun _ => ?_
  exact agrees_refl

theorem throwStatement_agrees (h : g.Agree d n g') (multiline : Bool) :
    (throwStatement g multiline).AgreesAtToken d n (throwStatement g' multiline) := by
  unfold throwStatement
  refine agreesAtToken_look fun _ => agreesAtToken_advance (agrees_skip fun _ => ?_)
  exact (expectExpression_agrees h multiline).bind fun _ => agrees_refl

theorem returnStatement_agrees (h : g.Agree d n g') (multiline : Bool) :
    (returnStatement g multiline).AgreesAtToken d n (returnStatement g' multiline) := by
  have value : (do let _ ← blanks; g.expression multiline true).Agrees d n
      (do let _ ← blanks; g'.expression multiline true) :=
    agrees_skip fun _ => h.expression multiline true
  unfold returnStatement
  refine agreesAtToken_look fun _ => agreesAtToken_advance ?_
  exact value.attempt.bind fun _ => agrees_refl

theorem importStatement_agrees (h : g.Agree d n g') :
    (importStatement g).AgreesAtToken d n (importStatement g') := by
  -- Of an import, only the path can have something nested in it.
  have path : (importPath g).Agrees d n (importPath g') := by
    unfold importPath
    exact agrees_skip fun _ => (quoted_agrees h _).late.bind fun _ => agrees_refl
  have source (start : Position) (isIn : Bool) (name : String) :
      (importFrom g start isIn name).Agrees d n (importFrom g' start isIn name) := by
    unfold importFrom
    refine agrees_skip fun _ => agrees_skip fun isIn => agrees_skip fun t => ?_
    refine agrees_skip fun _ => ?_
    refine agrees_ite (fun _ => agrees_skip fun _ => agrees_skip fun _ => ?_) fun _ => agrees_refl
    exact agrees_ite (fun _ => path.bind fun _ => agrees_refl) fun _ => agrees_refl
  unfold importStatement
  refine agreesAtToken_look fun _ => agreesAtToken_advance (agrees_skip fun _ => ?_)
  refine agrees_skip fun _ => agrees_skip fun _ => ?_
  refine agrees_ite (fun _ => agrees_skip fun _ => ?_) fun _ => ?_
  all_goals exact agrees_ite (fun _ => source _ _ _) fun _ => agrees_refl

theorem expressionStatement_agrees {s : State} {multiline : Bool}
    (he : g.expression multiline true s = g'.expression multiline true s) :
    expressionStatement g multiline s = expressionStatement g' multiline s :=
  bind_congr_at he fun _ _ _ => rfl

theorem wordStatement_agrees (h : g.Agree d n g') {s : State} (hd : s.depth = d)
    (hs : s.rest.length < n + 1) (htoken : s.rest ≠ []) {multiline : Bool}
    (he : g.expression multiline true s = g'.expression multiline true s) (t : Token) :
    wordStatement g multiline t s = wordStatement g' multiline t s := by
  have declarations : variableStatement g multiline t s = variableStatement g' multiline t s := by
    unfold variableStatement
    split
    · rfl
    · refine agreesAtToken_advance ?_ hd hs htoken
      exact (declaration_agrees h multiline true t).bind fun _ => agrees_refl
  have functions : (succeeds functionDeclarationAhead >>= fun ahead =>
      if ahead then functionDeclaration g multiline else expressionStatement g multiline) s =
      (succeeds functionDeclarationAhead >>= fun ahead =>
      if ahead then functionDeclaration g' multiline else expressionStatement g' multiline) s := by
    refine bind_congr_at rfl fun ahead u hu => ?_
    rw [succeeds_run] at hu
    cases hu
    split
    · exact functionDeclaration_agrees h multiline hd hs
    · exact expressionStatement_agrees he
  unfold wordStatement
  split
  -- declarations of variables, then of functions
  iterate 3 exact declarations
  iterate 2 exact functions
  -- one statement for each of the other words, and else an expression
  · exact ifStatement_agrees h multiline hd hs htoken
  · exact switchStatement_agrees h multiline hd hs htoken
  · exact caseLabel_agrees h multiline hd hs htoken
  · rfl
  · exact whileStatement_agrees h multiline hd hs htoken
  · exact doStatement_agrees h multiline hd hs htoken
  · exact forStatement_agrees h multiline hd hs htoken
  · exact tryStatement_agrees h multiline hd hs htoken
  · exact throwStatement_agrees h multiline hd hs htoken
  · exact importStatement_agrees h hd hs htoken
  iterate 2 rfl
  · exact returnStatement_agrees h multiline hd hs htoken
  · rfl
  · exact expressionStatement_agrees he

/-- A statement reads a token before anything nested, unless it is an expression. -/
theorem statement_agrees (h : g.Agree d n g') {s : State} (hd : s.depth = d)
    (hs : s.rest.length < n + 1) {multiline : Bool}
    (he : g.expression multiline true s = g'.expression multiline true s) :
    statement g multiline s = statement g' multiline s := by
  have bare : bareStatement g multiline s = bareStatement g' multiline s := by
    unfold bareStatement
    refine bind_congr_at rfl fun t u hu => ?_
    cases hu
    -- By the first token; what starts like an expression is left to the assumption about expressions.
    split
    · exact bind_congr_at (block_agrees h multiline hd hs) fun _ _ _ => rfl
    · rfl
    · next hk =>
      exact wordStatement_agrees h hd hs (State.rest_ne_nil_of_kind_eq hk nofun) he s.current
    · exact expressionStatement_agrees he
  exact bind_congr_at bare fun _ _ _ => rfl

/-! ### Levels -/

theorem guarded_agrees {inner inner' : Parser α} (instead : Parser α)
    (h : d < nestingLimit → inner.Agrees (d + 1) n inner') :
    (guarded inner instead).Agrees d n (guarded inner' instead) := by
  intro s hd hs
  unfold guarded
  refine state_bind_congr_at ?_
  by_cases hlt : s.depth < nestingLimit
  · rw [if_pos hlt, if_pos hlt]
    exact (h (hd ▸ hlt)).deeper hd hs
  · rw [if_neg hlt, if_neg hlt]

/-- Readers that open a level do what the readers one level further in do, if there is such a level. -/
theorem levelled_agree (h : d < nestingLimit → g.Agree (d + 1) n g') :
    (levelled g).Agree d n (levelled g') where
  expression m b := (guarded_agrees _ fun hd => (h hd).expression m b).rewind
  operand m := guarded_agrees _ fun hd => (h hd).operand m
  statement m := (guarded_agrees _ fun hd => (h hd).statement m).rewind

/-- The readers do the same where fewer than `n` tokens are left, and expressions with `n` too. -/
theorem productions_agree (h : g.Agree d n g')
    (he : ∀ m b, (g.expression m b).Agrees d (n + 1) (g'.expression m b)) :
    (productions g).Agree d (n + 1) (productions g') where
  expression := expression_agrees h
  operand := prefixed_agrees h
  statement m := fun _ hd hs => statement_agrees h hd hs (he m true hd hs)

theorem productions_agree_late (h : g.Agree d n g') : (productions g).Agree d n (productions g') := by
  cases n with
  | zero => exact Nested.agree_zero
  | succ n => exact productions_agree h.late h.expression

/-- With as many levels to go as can be opened, one level more makes no difference. -/
theorem nested_succ_agree (n m d : Nat) (h : nestingLimit ≤ n + d) :
    (nested n).Agree d m (nested (n + 1)) := by
  -- By induction on the levels to go. With none of them, the level that is reached is the last one.
  induction n generalizing d with
  | zero => exact levelled_agree fun hd => absurd hd (by omega)
  | succ n ih => exact levelled_agree fun _ => productions_agree_late (ih (d + 1) (by omega))

/-- **The readers at the outermost level are the productions in terms of themselves.** -/
theorem outermost_eq : outermost = levelled (productions outermost) :=
  Nested.eq_of_agree fun d n => nested_succ_agree nestingLimit n d (Nat.le_add_right _ _)

/-- As long as a level is left, an expression is what the production reads one level further in. -/
theorem outermost_expression_eq_some {multiline binary : Bool} {s s' : State} {e : Expression}
    (hdepth : s.depth < nestingLimit) :
    outermost.expression multiline binary s = (some e, s') ↔
      ∃ t, expression outermost multiline binary { s with depth := s.depth + 1 } = (some e, t) ∧
        s' = { t with depth := s.depth } := by
  have hproduction : outermost.expression multiline binary =
      rewind (guarded (expression outermost multiline binary) (refused.expression multiline binary)) :=
    congrArg (fun g => g.expression multiline binary) outermost_eq
  rw [hproduction, rewind_eq_some, guarded, state_bind_run, if_pos hdepth, deeper_eq_some]

/-! ### The grammar without a limit -/

/-- The readers in terms of those further in, with no limit to how far in that may be. As with levels, an
expression or a statement that fails leaves no trace. -/
def unlimited (g : Nested) : Nested where
  expression multiline binary := rewind (expression g multiline binary)
  operand multiline := prefixed g multiline
  statement multiline := rewind (statement g multiline)

theorem unlimited_agree (h : g.Agree d n g')
    (he : ∀ m b, (g.expression m b).Agrees d (n + 1) (g'.expression m b)) :
    (unlimited g).Agree d (n + 1) (unlimited g') :=
  have hproductions := productions_agree h he
  ⟨fun m b => (hproductions.expression m b).rewind, hproductions.operand,
    fun m => (hproductions.statement m).rewind⟩

theorem unlimited_agree_late (h : g.Agree d n g') : (unlimited g).Agree d n (unlimited g') := by
  cases n with
  | zero => exact Nested.agree_zero
  | succ n => exact unlimited_agree h.late h.expression

/-- **Without a limit there is at most one way to read.** Where `n` tokens are left, an expression is read
in terms of what is read where fewer are left, and a statement in terms of that and of the expression that
it may be. -/
theorem unlimited_unique (hg : unlimited g = g) (hg' : unlimited g' = g') : g = g' := by
  -- By induction on the tokens that are left.
  refine Nested.eq_of_agree fun d n => ?_
  induction n with
  | zero => exact Nested.agree_zero
  | succ n ih =>
    have hexpression (m b : Bool) : (g.expression m b).Agrees d (n + 1) (g'.expression m b) := by
      rw [← hg, ← hg']
      exact (expression_agrees ih m b).rewind
    rw [← hg, ← hg']
    exact unlimited_agree ih hexpression

/-- The readers that may go `k` steps in. -/
def iterated : Nat → Nested
  | 0 => refused
  | k + 1 => unlimited (iterated k)

/-- Two steps in for each token are enough: one for the statement and one for the expression that it is.
-/
theorem iterated_agree (n d : Nat) {j k : Nat} (hj : 2 * n ≤ j) (hk : 2 * n ≤ k) :
    (iterated j).Agree d n (iterated k) := by
  induction n generalizing j k with
  | zero => exact Nested.agree_zero
  | succ n ih =>
    -- The first step comes to an expression, if the statement is one, and the second to a token.
    obtain ⟨j, rfl⟩ : ∃ i, j = i + 2 := ⟨j - 2, by omega⟩
    obtain ⟨k, rfl⟩ : ∃ i, k = i + 2 := ⟨k - 2, by omega⟩
    have hexpression (m b : Bool) : ((iterated (j + 1)).expression m b).Agrees d (n + 1)
        ((iterated (k + 1)).expression m b) :=
      (expression_agrees (ih (by omega) (by omega)) m b).rewind
    exact unlimited_agree (ih (by omega) (by omega)) hexpression

/-- The parser that does in each state what the parsers of a sequence do if they are given enough steps
for the tokens that are left. -/
def limit (p : Nat → Parser α) : Parser α where
  run s := p (2 * (s.rest.length + 1)) s
  extended s := (p (2 * (s.rest.length + 1))).extended s

theorem limit_run (p : Nat → Parser α) (s : State) : limit p s = p (2 * (s.rest.length + 1)) s := rfl

/-- The readers that may go in as far as there are tokens. -/
def boundless : Nested where
  expression multiline binary := limit fun k => (iterated k).expression multiline binary
  operand multiline := limit fun k => (iterated k).operand multiline
  statement multiline := limit fun k => (iterated k).statement multiline

theorem boundless_agree (n d : Nat) {k : Nat} (hk : 2 * n ≤ k) : boundless.Agree d n (iterated k) := by
  -- With twice as many levels as tokens left, further levels change nothing any more.
  have enough {s : State} (hs : s.rest.length < n) :
      (iterated (2 * (s.rest.length + 1))).Agree s.depth (s.rest.length + 1) (iterated k) :=
    iterated_agree _ _ (Nat.le_refl _) (by omega)
  constructor
  · intro m b s _ hs
    rw [boundless, limit_run, (enough hs).expression m b rfl (Nat.lt_succ_self _)]
  · intro m s _ hs
    rw [boundless, limit_run, (enough hs).operand m rfl (Nat.lt_succ_self _)]
  · intro m s _ hs
    rw [boundless, limit_run, (enough hs).statement m rfl (Nat.lt_succ_self _)]

theorem unlimited_boundless : unlimited boundless = boundless := by
  refine Nested.eq_of_agree fun d n => ?_
  have hstep : (unlimited boundless).Agree d n (iterated (2 * n + 1)) :=
    unlimited_agree_late (boundless_agree n d (Nat.le_refl _))
  have hbound : (iterated (2 * n)).Agree d n boundless := (boundless_agree n d (Nat.le_refl _)).symm
  exact (hstep.trans (iterated_agree n d (by omega) (by omega))).trans hbound

/-! ### Reading ends -/

/-- The production `f` uses the readers further in only after it has read a token: what it does in a state
depends only on what they do where fewer tokens are left. -/
def DependsBelow (f : Nested → Parser α) : Prop :=
  ∀ (g g' : Nested) (s : State), g.Agree s.depth s.rest.length g' → f g s = f g' s

theorem DependsBelow.of_agrees {f : Nested → Parser α}
    (h : ∀ {d n : Nat} {g g' : Nested}, g.Agree d n g' → (f g).Agrees d (n + 1) (f g')) :
    DependsBelow f :=
  fun _ _ _ hg => h hg rfl (Nat.lt_succ_self _)

end Grammar

open Grammar

/-- **Reading ends,** on every text and with every configuration.

The loop over the lines of a story comes to the end of the file, from any state. Every round of every loop
ends the loop or reads a token. Lines, blocks, expressions and operands use the readers further in only
after they have read a token; so do statements, but for the expression that a statement may be. Hence the
recursion is well-founded in the number of tokens that are left: the readers are the productions in terms
of themselves, and that would fix them even if there were no limit to how deep they are nested. -/
theorem reading_ends :
    (∀ (s : State) (path : String), ∃ ls s', Iterates moduleRound [] s (some ls, s') ∧
      s'.isEof = true ∧ (s.parseModule path).module.lines = ls) ∧
    (Advances moduleRound ∧ ∀ g, LoopsAdvance g) ∧
    (DependsBelow line ∧ (∀ multiline, DependsBelow fun g => block g multiline) ∧
      (∀ multiline binary, DependsBelow fun g => expression g multiline binary) ∧
      (∀ multiline, DependsBelow fun g => prefixed g multiline) ∧
      ∀ (g g' : Nested) (s : State) (multiline : Bool), g.Agree s.depth s.rest.length g' →
        g.expression multiline true s = g'.expression multiline true s →
        statement g multiline s = statement g' multiline s) ∧
    outermost = levelled (productions outermost) ∧ ∃! g, unlimited g = g := by
  refine ⟨fun s path => ?_, ⟨moduleRound_advances, loopsAdvance⟩,
    ⟨.of_agrees line_agrees, ?_, ?_, ?_, ?_⟩, outermost_eq, boundless, unlimited_boundless,
    fun g hg => unlimited_unique hg unlimited_boundless⟩
  · obtain ⟨ls, s', hlines, hend⟩ := lines_eq_some s
    have hiterates : Iterates moduleRound [] s (lines s) := loop_iterates moduleRound_advances [] s
    refine ⟨ls, s', hlines ▸ hiterates, hend, ?_⟩
    change (lines s).1.getD [] = ls
    rw [hlines]
    rfl
  · exact fun multiline => .of_agrees fun h => block_agrees h multiline
  · exact fun multiline binary => .of_agrees fun h => expression_agrees h multiline binary
  · exact fun multiline => .of_agrees fun h => prefixed_agrees h multiline
  · exact fun g g' s multiline h he => statement_agrees h rfl (Nat.lt_succ_self _) he

end Story
