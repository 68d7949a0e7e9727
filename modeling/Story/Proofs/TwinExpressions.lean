import Story.Proofs.TwinLines

/-!
# Expressions mirror themselves

The productions of expressions, one lemma for each, as for lines: operands first, then what is put before them
and what follows them.

* `Grammar.operand_twins`, `Grammar.prefixed_twins` — operands, without and with operators before them;
* `Grammar.continuation_twins` — one continuation. It looks at the expression that it is put on only to ask
  where it starts and whether it can be assigned to, and expressions that look alike answer the same;
* `Grammar.expression_twins` — whole expressions.
-/

namespace Story.Grammar

open Story.Parser

variable {k : Likeness} {g g' : Nested} {multiline : Bool}

/-! ### Names and numbers -/

theorem missingHere_twins : Twins k missingHere missingHere := by
  refine (mirrors_report _ _).seq ?_
  refine twins_here.bind fun _ _ hhere => ?_
  exact mirrors_pure (congrArg Expression.missing hhere)

theorem resolve_alike {s t : State} {x y : Token} (hst : s.Matches k t) (hxy : x.Matches k y)
    (hword : x.kind = .word) : Alike k (resolve s x) (resolve t y) := by
  rw [resolve, resolve, State.isLocal, State.isLocal, hst.locals, hxy.word_eq hword]
  exact congrArg₂ (Expression.name · _ ·) hxy.span (hxy.word_alike hword)

theorem rawName_twins : Twins k rawName rawName := by
  unfold rawName
  refine twins_position.bind fun _ _ hstart => ?_
  refine (mirrors_eat _).seq ?_
  refine mirrors_eatName.bind fun t u ⟨_, htext, hname⟩ => ?_
  rw [htext]
  refine (mirrors_require rfl).seq ?_
  refine (twins_spanFrom hstart).bind fun _ _ hspan => ?_
  exact mirrors_pure (congrArg₂ (Expression.name · _ ·) hspan hname)

theorem mantissa_matches {s t : State} (hst : s.Matches k t) :
    (mantissa s).1 = (mantissa t).1 ∧ (mantissa s).2.Matches k (mantissa t).2 := by
  have hdigits : isDigits s.current.text = isDigits t.current.text := hst.current.test (by decide)
  have hfraction : isFraction (s.peek 2).text = isFraction (t.peek 2).text := (hst.peek 2).test (by decide)
  rw [mantissa, mantissa, hst.kind_eq, hdigits, hfraction, hst.peek_kind_eq, hst.peek_kind_eq]
  split_ifs
  · exact ⟨rfl, hst.peek 1⟩
  · exact ⟨rfl, hst.peek 2⟩
  · exact ⟨rfl, hst.current⟩

theorem numberLength_eq {s t : State} (hst : s.Matches k t) : numberLength s = numberLength t := by
  obtain ⟨hlength, hlast⟩ := mantissa_matches hst
  have hexponent : endsWithOpenExponent (mantissa s).2.text = endsWithOpenExponent (mantissa t).2.text :=
    hlast.test (by decide)
  have hdigits (n : Nat) : isDigits (s.peek n).text = isDigits (t.peek n).text := (hst.peek n).test (by decide)
  simp only [numberLength, hlength, hexponent, hdigits, hst.peek_kind_eq]

theorem number_twins : Twins k number number := by
  unfold number
  refine mirrors_state.bind fun s t hst => ?_
  rw [numberLength_eq hst]
  refine (mirrors_advanceBy _).seq ?_
  refine (twins_spanFrom hst.position).bind fun _ _ hspan => ?_
  exact mirrors_pure (congrArg₂ Expression.number hspan (joined_chars (List.forall₂_take _ hst.rest)))

theorem stringLiteral_twins (hg : g.Twins k g') (quote : Quote) :
    Twins k (stringLiteral g quote) (stringLiteral g' quote) := by
  unfold stringLiteral
  refine mirrors_current.bind fun t u htu => ?_
  rw [htu.kind]
  refine (quoted_twins hg _).bind ?_
  rintro ⟨parts, _⟩ ⟨parts', _⟩ hquoted
  obtain ⟨hparts, -⟩ := alike_pair_iff.mp hquoted
  refine (twins_spanFrom htu.start).bind fun _ _ hspan => mirrors_pure ?_
  simp_all [Alike, Through.through, Expression.through]

/-! ### Lists -/

theorem element_twins (hg : g.Twins k g') (multiline : Bool) :
    Twins k (element g multiline) (element g' multiline) := by
  unfold element
  refine mirrors_state.bind fun s t hst => ?_
  refine mirrors_ite (by rw [hst.atSpread_eq]) (fun _ _ => ?_) fun _ _ => hg.expression multiline true
  refine (mirrors_advanceBy _).seq ?_
  refine (hg.expression multiline true).bind fun _ _ hinner => ?_
  refine (twins_spanFrom hst.position).bind fun _ _ hspan => ?_
  exact mirrors_pure (congrArg₂ Expression.spread hspan hinner)

theorem arguments_twins (hg : g.Twins k g') (multiline : Bool) :
    Twins k (arguments g multiline) (arguments g' multiline) :=
  bracketed_twins fun _ _ _ => element_twins hg multiline

theorem arrayLiteral_twins (hg : g.Twins k g') (multiline : Bool) :
    Twins k (arrayLiteral g multiline) (arrayLiteral g' multiline) := by
  unfold arrayLiteral
  refine twins_position.bind fun _ _ hstart => (bracketed_twins fun _ _ _ => element_twins hg multiline).bind ?_
  rintro ⟨brackets, elements⟩ ⟨brackets', elements'⟩ hlists
  obtain ⟨hbrackets, helements⟩ := alike_pair_iff.mp hlists
  refine (twins_spanFrom hstart).bind fun _ _ hspan => mirrors_pure ?_
  simp_all [Alike, Through.through, Expression.through]

theorem expectExpression_twins (hg : g.Twins k g') (multiline : Bool) :
    Twins k (expectExpression g multiline) (expectExpression g' multiline) := by
  unfold expectExpression
  refine (hg.expression multiline true).found.bind fun x y hxy => ?_
  cases hxy with
  | some hxy => exact mirrors_pure hxy
  | none => exact missingHere_twins

theorem eatsAhead_mirrors (kind : TokenKind) (multiline : Bool) :
    Mirrors k Eq (eatsAhead kind multiline) (eatsAhead kind multiline) := by
  have heat : Mirrors k (Token.Matches k) (do trivia multiline; eat kind) (do trivia multiline; eat kind) :=
    (mirrors_trivia _).seq (mirrors_eat kind)
  exact heat.attempt.bind fun _ _ h => mirrors_pure (isSome_eq_of_rel h)

theorem propertyValue_twins (hg : g.Twins k g') (multiline : Bool) {x y : Option Expression}
    (hxy : Alike k x y) : Twins k (propertyValue g multiline x) (propertyValue g' multiline y) := by
  unfold propertyValue
  refine (eatsAhead_mirrors _ _).bind fun b b' hb => mirrors_ite (by rw [hb]) (fun _ _ => ?_) fun _ _ => ?_
  · exact (mirrors_trivia _).seq (expectExpression_twins hg multiline)
  · -- Without a colon the shorthand is the value, if there is one.
    cases x with
    | none =>
      cases y with
      | none =>
        refine (mirrors_expected _).seq ?_
        refine twins_here.bind fun _ _ hhere => ?_
        exact mirrors_pure (congrArg Expression.missing hhere)
      | some => cases hxy
    | some x =>
      cases y with
      | none => cases hxy
      | some y => exact mirrors_pure (Option.some.inj hxy)

theorem wordProperty_twins (hg : g.Twins k g') (multiline : Bool) {x y : Token} (hxy : x.Matches k y)
    (hword : x.kind = .word) : Twins k (wordProperty g multiline x) (wordProperty g' multiline y) := by
  have hname := hxy.word_alike hword
  unfold wordProperty
  rw [hxy.word_eq hword]
  refine mirrors_ite .rfl (fun _ _ => ?_) fun _ _ => ?_
  · refine mirrors_advance.seq ?_
    refine (propertyValue_twins hg multiline alike_none).bind fun _ _ hvalue => ?_
    refine (twins_spanFrom hxy.start).bind fun _ _ hspan => ?_
    refine mirrors_pure ?_
    simp_all [Alike, Through.through, Property.through]
  · refine (mirrors_require rfl).seq ?_
    refine mirrors_state.bind fun s t hst => ?_
    -- The shorthand is a name that is looked up, so it depends on the names that are known.
    have hshort : Alike k (if isReserved y.text then none else some (resolve s x))
        (if isReserved y.text then none else some (resolve t y)) := by
      split
      · exact alike_none
      · exact (resolve_alike hst hxy hword).some
    refine mirrors_advance.seq ?_
    refine (propertyValue_twins hg multiline hshort).bind fun _ _ hvalue => ?_
    refine (twins_spanFrom hxy.start).bind fun _ _ hspan => ?_
    refine mirrors_pure ?_
    simp_all [Alike, Through.through, Property.through]

theorem quotedProperty_twins (hg : g.Twins k g') (multiline : Bool) {x y : Token} (hxy : x.Matches k y)
    (quote : Quote) : Twins k (quotedProperty g multiline x quote) (quotedProperty g' multiline y quote) := by
  unfold quotedProperty
  rw [hxy.kind]
  refine (quoted_twins hg _).bind ?_
  rintro ⟨parts, _⟩ ⟨parts', _⟩ hquoted
  obtain ⟨hparts, -⟩ := alike_pair_iff.mp hquoted
  refine (twins_spanFrom hxy.start).bind fun _ _ hkey => ?_
  refine (propertyValue_twins hg multiline alike_none).bind fun _ _ hvalue => ?_
  refine (twins_spanFrom hxy.start).bind fun _ _ hspan => ?_
  refine mirrors_pure ?_
  simp_all [Alike, Through.through, Property.through]

theorem computedProperty_twins (hg : g.Twins k g') (multiline : Bool) :
    Twins k (computedProperty g multiline) (computedProperty g' multiline) := by
  unfold computedProperty
  refine twins_position.bind fun _ _ hstart => ?_
  refine (mirrors_eat _).seq ?_
  refine (mirrors_trivia _).seq ?_
  refine (hg.expression true true).bind fun _ _ hkey => ?_
  refine (mirrors_trivia _).seq ?_
  refine (mirrors_eat _).seq ?_
  refine (propertyValue_twins hg multiline alike_none).bind fun _ _ hvalue => ?_
  refine (twins_spanFrom hstart).bind fun _ _ hspan => ?_
  refine mirrors_pure ?_
  simp_all [Alike, Through.through, Property.through]

theorem property_twins (hg : g.Twins k g') (multiline : Bool) :
    Twins k (property g multiline) (property g' multiline) := by
  unfold property
  refine mirrors_state.bind fun s t hst => ?_
  refine mirrors_ite (by rw [hst.atSpread_eq]) (fun _ _ => ?_) fun _ _ => ?_
  · refine (element_twins hg multiline).bind fun _ _ hvalue => ?_
    refine (twins_spanFrom hst.position).bind fun _ _ hspan => ?_
    exact mirrors_pure (congrArg₂ Property.spread hspan hvalue)
  · rw [← hst.kind_eq]
    split
    · next hkind => exact wordProperty_twins hg multiline hst.current hkind
    · exact quotedProperty_twins hg multiline hst.current _
    · exact quotedProperty_twins hg multiline hst.current _
    · exact computedProperty_twins hg multiline
    · exact mirrors_fail

theorem objectLiteral_twins (hg : g.Twins k g') (multiline : Bool) :
    Twins k (objectLiteral g multiline) (objectLiteral g' multiline) := by
  unfold objectLiteral
  refine twins_position.bind fun _ _ hstart => (bracketed_twins fun _ _ _ => property_twins hg multiline).bind ?_
  rintro ⟨brackets, properties⟩ ⟨brackets', properties'⟩ hlists
  obtain ⟨hbrackets, hproperties⟩ := alike_pair_iff.mp hlists
  refine (twins_spanFrom hstart).bind fun _ _ hspan => mirrors_pure ?_
  simp_all [Alike, Through.through, Expression.through]

theorem parenExpression_twins (hg : g.Twins k g') : Twins k (parenExpression g) (parenExpression g') := by
  unfold parenExpression
  refine twins_position.bind fun _ _ hstart => ?_
  refine (mirrors_eat _).seq ?_
  refine (mirrors_trivia _).seq ?_
  refine (expectExpression_twins hg true).bind fun _ _ hinner => ?_
  refine (mirrors_trivia _).seq ?_
  refine (mirrors_expect _).seq ?_
  refine (twins_spanFrom hstart).bind fun _ _ hspan => ?_
  refine mirrors_pure ?_
  exact congrArg₂ Expression.paren hspan hinner

/-! ### Functions -/

theorem parameterDefault_twins (hg : g.Twins k g') (multiline : Bool) :
    Twins k (parameterDefault g multiline) (parameterDefault g' multiline) := by
  refine (mirrors_trivia _).seq ?_
  refine (mirrors_eat _).seq ?_
  refine (mirrors_trivia _).seq ?_
  exact hg.expression multiline true

theorem parameter_twins (hg : g.Twins k g') (multiline : Bool) :
    Twins k (parameter g multiline) (parameter g' multiline) := by
  unfold parameter
  refine mirrors_state.bind fun s t hst => ?_
  rw [hst.atSpread_eq]
  refine mirrors_ite .rfl (fun _ _ => (mirrors_advanceBy _).seq ?_) fun _ _ => ?_
  all_goals
    -- With or without the spread, what follows is the same.
    refine (mirrors_eats _).seq ?_
    refine mirrors_eatName.bind fun x y ⟨_, htext, hname⟩ => ?_
    rw [htext]
    refine (mirrors_require rfl).seq ?_
    refine (parameterDefault_twins hg multiline).attempt.bind fun _ _ hdefault => ?_
    refine (mirrors_declare rfl).seq ?_
    refine (twins_spanFrom hst.position).bind fun _ _ hspan => ?_
    refine mirrors_pure ?_
    have hvalue := alike_of_optionRel hdefault
    simp_all [Alike, Through.through, Parameter.through]

theorem parameters_twins (hg : g.Twins k g') (multiline : Bool) :
    Twins k (parameters g multiline) (parameters g' multiline) :=
  bracketed_twins fun _ _ _ => parameter_twins hg multiline

theorem functionName_twins : Twins k functionName functionName := by
  unfold functionName
  refine mirrors_current.bind fun t u htu => ?_
  refine mirrors_ite (by rw [htu.kind]) (fun hkind _ => ?_) fun _ _ => mirrors_pure rfl
  rw [htu.word_eq hkind]
  refine mirrors_advance.seq (mirrors_ite .rfl (fun _ _ => ?_) fun _ _ => mirrors_pure rfl)
  exact (mirrors_declare rfl).seq (mirrors_pure (htu.word_alike hkind).some)

theorem functionExpression_twins (hg : g.Twins k g') {start start' : Position} (hstart : Alike k start start')
    (isAsync multiline : Bool) :
    Twins k (functionExpression g start isAsync multiline) (functionExpression g' start' isAsync multiline) := by
  unfold functionExpression
  refine (mirrors_eatWord (by decide)).seq ?_
  refine mirrors_blanks.seq ?_
  refine (mirrors_eats _).bind fun b b' hb => ?_
  refine mirrors_blanks.seq ?_
  refine (Mirrors.inScope (R := Alike k) ?_).bind ?_
  · refine functionName_twins.bind fun _ _ hname => ?_
    refine mirrors_blanks.seq ?_
    refine (parameters_twins hg multiline).bind fun _ _ hparameters => ?_
    refine (block_twins hg multiline).bind fun _ _ hbody => ?_
    exact mirrors_pure (hname.pair (hparameters.pair hbody))
  · rintro ⟨name, ⟨brackets, params⟩, body⟩ ⟨name', ⟨brackets', params'⟩, body'⟩ hall
    simp only [alike_pair_iff] at hall
    obtain ⟨hname, ⟨hbrackets, hparams⟩, hbody⟩ := hall
    refine (twins_spanFrom hstart).bind fun _ _ hspan => mirrors_pure ?_
    simp_all [Alike, Through.through, Expression.through]

theorem arrowParameters_twins (hg : g.Twins k g') (multiline : Bool) :
    Twins k (arrowParameters g multiline) (arrowParameters g' multiline) := by
  unfold arrowParameters
  refine mirrors_state.bind fun s t hst => mirrors_ite (by rw [hst.kind_eq]) (fun _ _ => ?_) fun _ _ => ?_
  · refine (parameters_twins hg multiline).bind ?_
    rintro ⟨brackets, params⟩ ⟨brackets', params'⟩ hlists
    obtain ⟨hbrackets, hparams⟩ := alike_pair_iff.mp hlists
    refine (mirrors_requireState fun s' t' hst' => ?_).seq (mirrors_pure hlists)
    -- Nothing has been reported since on one side if nothing has been on the other.
    have hclosing : brackets.closing.isSome = brackets'.closing.isSome := by
      have hsame := congrArg (fun b => b.closing.isSome) hbrackets
      simpa [Through.through, Brackets.through] using hsame
    have hreports : (s'.reports.length == s.reports.length) = (t'.reports.length == t.reports.length) := by
      have hbefore := hst.reports.length_eq
      have hafter := hst'.reports.length_eq
      rw [Bool.eq_iff_iff, beq_iff_eq, beq_iff_eq]
      omega
    rw [hclosing, hreports]
  · refine mirrors_eatName.bind fun x y ⟨hxy, htext, hname⟩ => ?_
    rw [htext]
    refine (mirrors_require rfl).seq ?_
    refine (mirrors_declare rfl).seq ?_
    refine mirrors_pure ?_
    have hspan := hxy.span
    simp_all [Alike, Through.through, Parameter.through, Brackets.through]

theorem arrowFunction_twins (hg : g.Twins k g') {start start' : Position} (hstart : Alike k start start')
    (isAsync multiline : Bool) :
    Twins k (arrowFunction g start isAsync multiline) (arrowFunction g' start' isAsync multiline) := by
  unfold arrowFunction
  refine Mirrors.inScope ((arrowParameters_twins hg multiline).bind ?_)
  rintro ⟨brackets, params⟩ ⟨brackets', params'⟩ hlists
  obtain ⟨hbrackets, hparams⟩ := alike_pair_iff.mp hlists
  refine mirrors_blanks.seq ?_
  refine (mirrors_eat _).seq ?_
  refine (mirrors_eat _).seq ?_
  refine (block_twins hg multiline).found.bind fun x y hxy => ?_
  cases hxy with
  | some hbody =>
    refine (twins_spanFrom hstart).bind fun _ _ hspan => mirrors_pure ?_
    simp_all [Alike, Through.through, Expression.through]
  | none =>
    refine (mirrors_trivia _).seq ?_
    refine (expectExpression_twins hg multiline).bind fun _ _ hbody => ?_
    refine (twins_spanFrom hstart).bind fun _ _ hspan => ?_
    refine mirrors_pure ?_
    simp_all [Alike, Through.through, Expression.through]

theorem asyncFunction_twins (hg : g.Twins k g') (multiline : Bool) :
    Twins k (asyncFunction g multiline) (asyncFunction g' multiline) := by
  unfold asyncFunction
  refine Mirrors.rewind ?_
  refine twins_position.bind fun _ _ hstart => ?_
  refine mirrors_advance.seq ?_
  refine mirrors_someBlanks.seq ?_
  refine mirrors_state.bind fun s t hst => ?_
  exact mirrors_ite (by rw [hst.current.isWord_eq (by decide)])
    (fun _ _ => functionExpression_twins hg hstart true multiline)
    fun _ _ => arrowFunction_twins hg hstart true multiline

/-! ### Operands -/

theorem wordOperand_mirrorsAt (hg : g.Twins k g') (multiline : Bool) {s t : State} (hst : s.Matches k t)
    (hkind : s.kind = .word) :
    MirrorsAt k (Alike k) (wordOperand g multiline) (wordOperand g' multiline) s t := by
  have hcurrent := hst.current
  unfold wordOperand
  refine mirrorsAt_state_bind ?_
  dsimp only
  rw [hcurrent.word_eq hkind]
  -- A number, a truth value, a keyword, a function; and last a name, with or without an arrow after it.
  refine mirrors_ite .rfl (fun _ _ => number_twins) (fun _ _ => ?_) hst
  refine mirrors_ite .rfl (fun _ _ => ?_) fun _ _ => ?_
  · exact mirrors_advance.seq (mirrors_pure (congrArg (Expression.boolean · _) hcurrent.span))
  rcases Keyword.ofWord? t.current.text with _ | word
  · refine mirrors_ite .rfl (fun _ _ => functionExpression_twins hg hcurrent.start false multiline) fun _ _ => ?_
    refine mirrors_ite .rfl (fun _ _ => asyncFunction_twins hg multiline) fun _ _ => ?_
    refine (mirrors_require rfl).seq ?_
    refine (arrowFunction_twins hg hcurrent.start false multiline).orElse ?_
    exact mirrors_advance.seq (mirrors_pure (resolve_alike hst hcurrent hkind))
  · exact mirrors_advance.seq (mirrors_pure (congrArg (Expression.keyword · _) hcurrent.span))

theorem plainOperand_twins (hg : g.Twins k g') (multiline : Bool) :
    Twins k (plainOperand g multiline) (plainOperand g' multiline) := by
  unfold plainOperand
  refine mirrors_state_bind fun s t hst => ?_
  rw [← hst.kind_eq]
  split
  · next hkind => exact wordOperand_mirrorsAt hg multiline hst hkind
  · -- The digits after the point are recognized by a test that no end of line passes.
    have hfraction : isFraction (s.peek 1).text = isFraction (t.peek 1).text := (hst.peek 1).test (by decide)
    rw [hst.peek_kind_eq, hfraction]
    exact ((mirrors_require rfl).seq number_twins) hst
  · exact rawName_twins hst
  · exact stringLiteral_twins hg _ hst
  · exact stringLiteral_twins hg _ hst
  · exact stringLiteral_twins hg _ hst
  · exact ((arrowFunction_twins hg hst.position false multiline).orElse (parenExpression_twins hg)) hst
  · exact arrayLiteral_twins hg multiline hst
  · exact objectLiteral_twins hg multiline hst
  · exact mirrors_fail hst

/-- The name after a dot, whatever it is the name of. -/
theorem memberName_twins {e e' : Expression} (he : Alike k e e') {start start' : Position}
    (hstart : Alike k start start') (isOptional : Bool) :
    Twins k (memberName e start isOptional) (memberName e' start' isOptional) := by
  unfold memberName
  refine mirrors_eatName.bind fun x y ⟨_, htext, hname⟩ => ?_
  rw [htext]
  refine (mirrors_require rfl).seq ?_
  refine (twins_spanFrom hstart).bind fun _ _ hspan => ?_
  refine mirrors_pure ?_
  simp_all [Alike, Through.through, Expression.through]

/-- Expressions that look the same start at places that look the same. -/
theorem start_alike {e e' : Expression} (h : Alike k e e') : Alike k e.span.start e'.span.start := by
  have hspan (l : Lens) (e : Expression) : (e.through l).span = e.span.through l := by
    cases e <;> simp only [Expression.through, Expression.span]
  have hsame := congrArg (fun e => e.span.start) (show e.through k.left = e'.through k.right from h)
  simp only [hspan] at hsame
  exact hsame

theorem newTail_twins (hg : g.Twins k g') (multiline : Bool) {e e' : Expression} (he : Alike k e e')
    {start start' : Position} (hstart : Alike k start start') :
    Twins k (newTail g multiline e start) (newTail g' multiline e' start') := by
  unfold newTail
  -- Members are taken as long as a dot follows, before the arguments.
  have hround (c c' : Expression) (hc : Alike k c c') :
      Mirrors k (Round.Rel (Alike k) (Alike k)) (newMemberRound c) (newMemberRound c') := by
    unfold newMemberRound
    refine Mirrors.bind (Mirrors.attempt (R := Alike k) ?_) fun x y hxy => ?_
    · exact (mirrors_eat _).seq (memberName_twins hc (start_alike hc) false)
    · cases hxy with
      | some hmember => exact mirrors_pure (.again hmember)
      | none => exact mirrors_pure (.done hc)
  refine (mirrors_repeated hround he).bind fun c c' hc => ?_
  refine (arguments_twins hg multiline).found.bind fun x y hxy => ?_
  cases hxy with
  | none =>
    refine (twins_spanFrom hstart).bind fun _ _ hspan => mirrors_pure ?_
    simp_all [Alike, Through.through, Expression.through]
  | some hlists =>
    obtain ⟨hbrackets, hitems⟩ := alike_pair_iff.mp hlists
    refine (twins_spanFrom hstart).bind fun _ _ hspan => mirrors_pure ?_
    simp_all [Alike, Through.through, Expression.through]

theorem operand_twins (hg : g.Twins k g') (multiline : Bool) :
    Twins k (operand g multiline) (operand g' multiline) := by
  unfold operand
  -- The words `new` are collected with their positions, for the spans of what they make.
  have hround (ps qs : List Position) (hps : List.Forall₂ (Alike k) ps qs) :
      Mirrors k (Round.Rel (List.Forall₂ (Alike k)) (List.Forall₂ (Alike k))) (newRound ps) (newRound qs) := by
    unfold newRound
    refine mirrors_state.bind fun s t hst => mirrors_ite (by rw [hst.current.isWord_eq (by decide)])
      (fun _ _ => ?_) fun _ _ => mirrors_pure (.done hps)
    refine mirrors_advance.seq ?_
    refine mirrors_someBlanks.seq ?_
    exact mirrors_pure (.again (.cons hst.position hps))
  refine (mirrors_repeated hround .nil).bind fun ps qs hps => ?_
  refine (plainOperand_twins hg multiline).bind fun c c' hc => ?_
  exact mirrors_foldlM (I := Alike k) (fun _ _ _ _ he hstart => newTail_twins hg multiline he hstart) hps hc

theorem updateOperator_mirrors : Mirrors k Eq updateOperator updateOperator := by
  unfold updateOperator
  refine mirrors_state_bind fun s t hst => ?_
  rw [← hst.kind_eq, ← hst.peek_kind_eq 1]
  split
  · exact ((mirrors_advanceBy 2).seq (mirrors_pure rfl)) hst
  · exact ((mirrors_advanceBy 2).seq (mirrors_pure rfl)) hst
  · exact mirrors_fail hst

theorem updateOperand_twins (hg : g.Twins k g') (multiline : Bool) :
    Twins k (updateOperand g multiline) (updateOperand g' multiline) := by
  unfold updateOperand
  refine twins_position.bind fun _ _ hstart => ?_
  refine updateOperator_mirrors.bind fun _ _ hoperator => ?_
  refine (hg.operand multiline).bind fun _ _ hoperand => ?_
  refine (twins_spanFrom hstart).bind fun _ _ hspan => ?_
  refine mirrors_pure ?_
  subst hoperator
  exact congrArg₂ (Expression.update · _ _ ·) hspan hoperand

theorem unaryOperand_twins (hg : g.Twins k g') (multiline : Bool) (operator : UnaryOperator) :
    Twins k (unaryOperand g multiline operator) (unaryOperand g' multiline operator) := by
  unfold unaryOperand
  refine twins_position.bind fun _ _ hstart => ?_
  refine mirrors_advance.seq ?_
  refine mirrors_blanks.seq ?_
  refine (hg.operand multiline).bind fun _ _ hoperand => ?_
  refine (twins_spanFrom hstart).bind fun _ _ hspan => ?_
  refine mirrors_pure ?_
  exact congrArg₂ (Expression.unary · _ ·) hspan hoperand

theorem wordOperation_twins (hg : g.Twins k g') (multiline : Bool) (operator : WordOperator) :
    Twins k (wordOperation g multiline operator) (wordOperation g' multiline operator) := by
  unfold wordOperation
  refine twins_position.bind fun _ _ hstart => ?_
  refine mirrors_advance.seq ?_
  refine mirrors_blanks.bind fun _ _ hspaced => ?_
  refine (mirrors_requireState fun s t hst => by rw [hspaced, hst.kind_eq]).seq ?_
  refine (hg.operand multiline).bind fun _ _ hoperand => ?_
  refine (twins_spanFrom hstart).bind fun _ _ hspan => ?_
  refine mirrors_pure ?_
  exact congrArg₂ (Expression.operation · _ ·) hspan hoperand

theorem yieldOperand_twins (hg : g.Twins k g') (multiline : Bool) :
    Twins k (yieldOperand g multiline) (yieldOperand g' multiline) := by
  unfold yieldOperand
  refine twins_position.bind fun _ _ hstart => ?_
  refine mirrors_advance.seq ?_
  refine (mirrors_eats _).bind fun _ _ hdelegate => ?_
  have hvalue : Twins k (do let _ ← blanks; g.expression multiline true)
      (do let _ ← blanks; g'.expression multiline true) :=
    mirrors_blanks.seq (hg.expression multiline true)
  refine hvalue.attempt.bind fun x y hxy => ?_
  refine (twins_spanFrom hstart).bind fun _ _ hspan => ?_
  refine mirrors_pure ?_
  have hxy := alike_of_optionRel hxy
  simp_all [Alike, Through.through, Expression.through]

/-- The operators before an operand are told by kinds of tokens and by words. -/
theorem unaryOperator?_eq {t u : Token} (h : t.Matches k u) : unaryOperator? t = unaryOperator? u := by
  have htext : (t.text = "void") = (u.text = "void") := h.test (f := (· = "void")) (by decide)
  unfold unaryOperator?
  rw [h.kind]
  simp only [htext]

theorem wordOperator?_eq {t u : Token} (h : t.Matches k u) : wordOperator? t = wordOperator? u := by
  unfold wordOperator?
  rw [h.isWord_eq (by decide), h.isWord_eq (by decide), h.isWord_eq (by decide)]

theorem atUpdate_eq {s t : State} (h : s.Matches k t) : atUpdate s = atUpdate t := by
  rw [atUpdate, atUpdate, h.kind_eq, h.peek_kind_eq]

/-- **An operand with the operators before it.** -/
theorem prefixed_twins (hg : g.Twins k g') (multiline : Bool) :
    Twins k (prefixed g multiline) (prefixed g' multiline) := by
  unfold prefixed
  refine mirrors_state.bind fun s t hst => ?_
  -- Which operator it is depends on the signs and words, and those are the same.
  rw [← atUpdate_eq hst, ← unaryOperator?_eq hst.current, ← wordOperator?_eq hst.current,
    ← hst.current.isWord_eq (by decide)]
  refine mirrors_ite .rfl (fun _ _ => updateOperand_twins hg multiline) fun _ _ => ?_
  rcases unaryOperator? s.current with _ | operator
  · rcases wordOperator? s.current with _ | operator
    · exact mirrors_ite .rfl (fun _ _ => yieldOperand_twins hg multiline) fun _ _ => operand_twins hg multiline
    · exact wordOperation_twins hg multiline operator
  · exact unaryOperand_twins hg multiline operator

/-! ### Continuations -/

section Continuations

variable {e e' : Expression} {start start' : Position}

theorem indexed_twins (hg : g.Twins k g') (he : Alike k e e') (hstart : Alike k start start')
    (isOptional : Bool) : Twins k (indexed g e start isOptional) (indexed g' e' start' isOptional) := by
  unfold indexed
  refine (mirrors_eat _).seq ?_
  refine (mirrors_trivia _).seq ?_
  refine (expectExpression_twins hg true).bind fun _ _ hindex => ?_
  refine (mirrors_trivia _).seq ?_
  refine (mirrors_expect _).seq ?_
  refine (twins_spanFrom hstart).bind fun _ _ hspan => ?_
  refine mirrors_pure ?_
  simp_all [Alike, Through.through, Expression.through]

theorem called_twins (hg : g.Twins k g') (multiline : Bool) (he : Alike k e e')
    (hstart : Alike k start start') (isOptional : Bool) :
    Twins k (called g multiline e start isOptional) (called g' multiline e' start' isOptional) := by
  unfold called
  refine (arguments_twins hg multiline).bind ?_
  rintro ⟨brackets, items⟩ ⟨brackets', items'⟩ h
  obtain ⟨hbrackets, hitems⟩ := alike_pair_iff.mp h
  refine (twins_spanFrom hstart).bind fun _ _ hspan => mirrors_pure ?_
  simp_all [Alike, Through.through, Expression.through]

theorem eatsOptional_mirrors : Mirrors k Eq eatsOptional eatsOptional := by
  unfold eatsOptional
  refine mirrors_state.bind fun s t hst => ?_
  rw [← hst.kind_eq, ← hst.peek_kind_eq 1]
  refine mirrors_ite .rfl (fun _ _ => ?_) fun _ _ => mirrors_pure rfl
  exact (mirrors_advanceBy 2).seq (mirrors_pure rfl)

theorem attachment_twins (hg : g.Twins k g') (multiline : Bool) (he : Alike k e e')
    (hstart : Alike k start start') (isOptional : Bool) :
    Twins k (attachment g multiline start e isOptional) (attachment g' multiline start' e' isOptional) := by
  unfold attachment
  have hkind : Mirrors k Eq (look State.kind) (look State.kind) := mirrors_look fun _ _ h => h.kind_eq
  -- `++` and `--` are two kinds of tokens with one case each.
  have hupdate : Twins k (do
      require !isOptional
      let operator ← updateOperator
      return Expression.update (← spanFrom start) operator false e) (do
      require !isOptional
      let operator ← updateOperator
      return Expression.update (← spanFrom start') operator false e') := by
    refine (mirrors_require rfl).seq ?_
    refine updateOperator_mirrors.bind fun _ _ hoperator => ?_
    refine (twins_spanFrom hstart).bind fun _ _ hspan => ?_
    refine mirrors_pure ?_
    subst hoperator
    exact congrArg₂ (Expression.update · _ _ ·) hspan he
  refine hkind.bind fun x y hxy => ?_
  subst hxy
  split
  · refine (mirrors_require rfl).seq ?_
    refine mirrors_advance.seq ?_
    exact memberName_twins he hstart false
  · exact (mirrors_require rfl).seq (memberName_twins he hstart true)
  · exact called_twins hg multiline he hstart isOptional
  · exact indexed_twins hg he hstart isOptional
  · exact hupdate
  · exact hupdate
  · exact mirrors_fail

theorem attached_twins (hg : g.Twins k g') (multiline : Bool) (he : Alike k e e')
    (hstart : Alike k start start') :
    Twins k (attached g multiline start e) (attached g' multiline start' e') := by
  unfold attached
  have hrest : Twins k (do attachment g multiline start e (← eatsOptional))
      (do attachment g' multiline start' e' (← eatsOptional)) := by
    refine eatsOptional_mirrors.bind fun x y hxy => ?_
    subst hxy
    exact attachment_twins hg multiline he hstart _
  exact mirrors_ite .rfl (fun _ _ => (mirrors_trivia true).seq hrest) fun _ _ => hrest

/-- Signs that are no ends of lines are there on both sides or on neither. -/
theorem startsWithSigns_eq {cs : List Char} (hcs : '\n' ∉ cs) {ts us : List Token}
    (h : List.Forall₂ (Token.Matches k) ts us) : startsWithSigns cs ts = startsWithSigns cs us := by
  induction cs generalizing ts us with
  | nil => rfl
  | cons c cs ih =>
    obtain ⟨hc, hcs⟩ := not_or.mp (mt List.mem_cons.mpr hcs)
    cases h with
    | nil => rfl
    | @cons x y _ _ hxy hall =>
      -- Neither way to end a line is a sign of one other character.
      have htext : (x.text == c.toString) = (y.text == c.toString) := by
        refine hxy.test (f := (· == c.toString)) ?_
        have hfeed : ("\n" == c.toString) = false :=
          beq_eq_false_iff_ne.mpr fun heq => hc (by simpa using congrArg String.toList heq)
        have hreturn : ("\r\n" == c.toString) = false :=
          beq_eq_false_iff_ne.mpr fun heq => by simpa using congrArg String.toList heq
        rw [hfeed, hreturn]
      rw [startsWithSigns, startsWithSigns, hxy.kind, htext, ih hcs hall]

theorem operatorAt?_eq {ts us : List Token} (h : List.Forall₂ (Token.Matches k) ts us) :
    operatorAt? ts = operatorAt? us := by
  -- No operator is spelled with an end of line.
  have hspelling (operator : BinaryOperator) : '\n' ∉ operator.spelling.toList := by
    cases operator <;> decide
  have hword (operator : BinaryOperator) : operator.spelling ≠ "\n" ∧ operator.spelling ≠ "\r\n" := by
    cases operator <;> decide
  have hsame : startsWithOperator ts = startsWithOperator us := by
    funext operator
    unfold startsWithOperator
    rw [startsWithSigns_eq (hspelling operator) h]
    cases h with
    | nil => rfl
    | cons hxy _ => simp only [List.head?_cons, Option.map_some, hxy.isWord_eq (hword operator)]
  rw [operatorAt?, operatorAt?, hsame]

theorem isAssignable_eq (he : Alike k e e') : isAssignable e = isAssignable e' := by
  have hsame (l : Lens) (e : Expression) : isAssignable (e.through l) = isAssignable e := by
    cases e <;> rfl
  rw [← hsame k.left e, ← hsame k.right e', show e.through k.left = e'.through k.right from he]

theorem operated_twins (hg : g.Twins k g') (multiline : Bool) (he : Alike k e e')
    (hstart : Alike k start start') :
    Twins k (operated g multiline start e) (operated g' multiline start' e') := by
  unfold operated
  refine (mirrors_trivia _).seq ?_
  refine mirrors_state.bind fun s t hst => ?_
  rw [← operatorAt?_eq hst.rest]
  rcases operatorAt? s.rest with _ | operator
  · exact mirrors_fail
  refine (mirrors_advanceBy _).seq ?_
  refine (mirrors_trivia _).seq ?_
  refine (prefixed_twins hg multiline).bind fun _ _ hright => ?_
  -- The report about what cannot be assigned to is at the same operator, and the value is made either way.
  rw [isAssignable_eq he]
  refine mirrors_ite .rfl (fun _ _ => (mirrors_reportAt hst.current.span _ _).seq ?_)
    fun _ _ => ?_
  all_goals
    refine (twins_spanFrom hstart).bind fun _ _ hspan => mirrors_pure ?_
    simp_all [Alike, Through.through, Expression.through]

theorem otherwiseValue_twins (hg : g.Twins k g') (multiline : Bool) :
    Twins k (otherwiseValue g multiline) (otherwiseValue g' multiline) := by
  unfold otherwiseValue
  refine (mirrors_expect _).bind fun _ _ hfound => mirrors_ite (by rw [hfound]) (fun _ _ => ?_) fun _ _ => ?_
  · exact (mirrors_trivia _).seq (expectExpression_twins hg multiline)
  · exact twins_here.bind fun _ _ hhere => mirrors_pure (congrArg Expression.missing hhere)

theorem conditional_twins (hg : g.Twins k g') (multiline : Bool) (he : Alike k e e')
    (hstart : Alike k start start') :
    Twins k (conditional g multiline start e) (conditional g' multiline start' e') := by
  unfold conditional
  refine (mirrors_trivia _).seq ?_
  refine (mirrors_requireState fun s t hst => by rw [hst.kind_eq, hst.peek_kind_eq]).seq ?_
  refine mirrors_advance.seq ?_
  refine (mirrors_trivia _).seq ?_
  refine (hg.expression multiline true).bind fun _ _ htrue => ?_
  refine (mirrors_trivia _).seq ?_
  refine (otherwiseValue_twins hg multiline).bind fun _ _ hfalse => ?_
  refine (twins_spanFrom hstart).bind fun _ _ hspan => ?_
  refine mirrors_pure ?_
  simp_all [Alike, Through.through, Expression.through]

theorem continuation_twins (hg : g.Twins k g') (multiline binary : Bool) (he : Alike k e e')
    (hstart : Alike k start start') :
    Mirrors k (Round.Rel (Alike k) (Alike k)) (continuation g multiline binary start e)
      (continuation g' multiline binary start' e') := by
  unfold continuation
  have hattached := attached_twins hg multiline he hstart
  have hall := hattached.orElse
    ((operated_twins hg multiline he hstart).orElse (conditional_twins hg multiline he hstart))
  -- One step further if something goes on there, and otherwise the expression that was found is the value.
  refine (mirrors_ite .rfl (fun _ _ => hall) fun _ _ => hattached).attempt.bind fun x y hxy => ?_
  cases hxy with
  | some hnext => exact mirrors_pure (.again hnext)
  | none => exact mirrors_pure (.done he)

end Continuations

/-- **An operand and its continuations.** -/
theorem expression_twins (hg : g.Twins k g') (multiline binary : Bool) :
    Twins k (expression g multiline binary) (expression g' multiline binary) := by
  unfold expression
  refine twins_position.bind fun _ _ hstart => ?_
  refine (prefixed_twins hg multiline).bind fun _ _ hfirst => ?_
  exact mirrors_repeated (fun _ _ he => continuation_twins hg multiline binary he hstart) hfirst

end Story.Grammar
