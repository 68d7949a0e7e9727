import Story.Proofs.TwinExpressions

/-!
# Statements mirror themselves, and so do stories

The productions of statements, one lemma for each. With them all productions of a level mirror themselves if
those of the level below do; so all levels do, and then a whole story.

* `Grammar.statement_twins` — statements;
* `Grammar.productions_twins`, `Grammar.nested_twins` — one level from the level below, and all levels;
* `Grammar.lines_twins` — the lines of a story;
* `State.Matches.parseModule` — what is read of two texts looks the same, and what is reported does.
-/

namespace Story.Grammar

open Story.Parser

variable {k : Likeness} {g g' : Nested} {multiline : Bool}

/-! ### Parts of statements -/

theorem expectBlock_twins (hg : g.Twins k g') (multiline : Bool) :
    Twins k (expectBlock g multiline) (expectBlock g' multiline) := by
  unfold expectBlock
  refine (block_twins hg multiline).found.bind fun x y hxy => ?_
  cases hxy with
  | some hbody => exact mirrors_pure hbody
  | none =>
    refine (mirrors_expected _).seq ?_
    refine twins_here.bind fun _ _ hhere => ?_
    refine mirrors_pure ?_
    simp_all [Alike, Through.through, Block.through, Brackets.through]

theorem body_twins (hg : g.Twins k g') (multiline : Bool) :
    Twins k (body g multiline) (body g' multiline) := by
  unfold body
  refine (block_twins hg multiline).found.bind fun x y hxy => ?_
  cases hxy with
  | some hblock => exact mirrors_pure (congrArg Statement.block hblock)
  | none =>
    -- No block: a single statement, and if there is none either, its absence is reported.
    have hsingle := (mirrors_trivia (k := k) multiline).seq (hg.statement multiline)
    refine hsingle.attempt.bind fun x y hxy => ?_
    cases hxy with
    | some hstatement => exact mirrors_pure hstatement
    | none =>
      refine (mirrors_report _ _).seq ?_
      refine twins_here.bind fun _ _ hhere => ?_
      exact mirrors_pure (congrArg Statement.missing hhere)

/-- What the brackets of two lists enclose. -/
theorem bracketsSpan_alike {b b' : Brackets} (h : Alike k b b') : Alike k b.span b'.span := by
  obtain ⟨opening, closing⟩ := b
  obtain ⟨opening', closing'⟩ := b'
  simp only [Alike, Through.through, Brackets.through, Brackets.mk.injEq] at h
  obtain ⟨hopening, hclosing⟩ := h
  refine k.union hopening ?_
  -- Both lists are closed or neither is; an open one encloses its opening bracket only.
  cases closing with
  | none => cases closing' with
    | none => exact hopening
    | some => cases hclosing
  | some => cases closing' with
    | none => cases hclosing
    | some => exact Option.some.inj hclosing

theorem condition_twins (hg : g.Twins k g') (multiline : Bool) :
    Twins k (condition g multiline) (condition g' multiline) := by
  unfold condition
  have hlist : Twins k
      (bracketed (conditionList multiline) fun taken =>
        if taken.isEmpty then g.expression multiline true else fail)
      (bracketed (conditionList multiline) fun taken =>
        if taken.isEmpty then g'.expression multiline true else fail) :=
    bracketed_twins fun xs ys hxy => mirrors_ite (by rw [hxy.isEmpty_eq])
      (fun _ _ => hg.expression multiline true) fun _ _ => mirrors_fail
  refine mirrors_blanks.seq ?_
  refine hlist.found.bind fun x y hxy => ?_
  cases hxy with
  | none =>
    refine (mirrors_expected _).seq ?_
    refine twins_here.bind fun _ _ hhere => ?_
    exact mirrors_pure (congrArg Expression.missing hhere)
  | @some a b hab =>
    obtain ⟨brackets, items⟩ := a
    obtain ⟨brackets', items'⟩ := b
    obtain ⟨hbrackets, hitems⟩ := alike_pair_iff.mp hab
    have hspan := bracketsSpan_alike hbrackets
    -- Lists that look alike are as long as each other, so both conditions are missing or neither is.
    cases items with
    | nil => cases items' with
      | nil =>
        exact (mirrors_reportAt hspan _ _).seq (mirrors_pure (congrArg Expression.missing hspan))
      | cons => cases hitems
    | cons => cases items' with
      | nil => cases hitems
      | cons => exact mirrors_pure (alike_cons_iff.mp hitems).1

theorem goesOn_mirrors {word : String} (hword : word ≠ "\n" ∧ word ≠ "\r\n") (multiline : Bool) :
    Mirrors k Eq (goesOn word multiline) (goesOn word multiline) := by
  unfold goesOn
  have hfound := (mirrors_trivia (k := k) multiline).seq (mirrors_eatWord hword)
  exact hfound.attempt.bind fun _ _ hxy => mirrors_pure (isSome_eq_of_rel hxy)

theorem positionAhead_twins (multiline : Bool) : Twins k (positionAhead multiline) (positionAhead multiline) :=
  mirrors_look fun _ _ h => (h.skipTrivia multiline).position

/-! ### Declarations -/

theorem binding_mirrors : Mirrors k (Option.Rel (Alike k)) binding binding := by
  unfold binding
  refine twins_position.bind fun _ _ hstart => ?_
  refine (mirrors_eats _).bind fun x y hraw => ?_
  refine mirrors_current.bind fun t u htu => ?_
  refine mirrors_ite (by rw [htu.kind]) (fun hword _ => ?_) fun _ _ => mirrors_pure .none
  have hname := htu.word_alike hword
  subst hraw
  rw [htu.word_eq hword]
  refine mirrors_advance.seq (mirrors_ite .rfl (fun _ _ => ?_) fun _ _ => mirrors_pure .none)
  -- The name is the same word; where it starts and stops looks the same.
  have hvalue : Option.Rel (Alike k) (some (Binding.mk ⟨_, t.stop⟩ x u.text)) (some ⟨⟨_, u.stop⟩, x, u.text⟩) :=
    .some (congrArg₂ (Binding.mk · _ ·) (alike_span hstart htu.stop) hname)
  exact mirrors_ite .rfl (fun _ _ => (mirrors_declare rfl).seq (mirrors_pure hvalue))
    fun _ _ => mirrors_pure hvalue

theorem declaredValue_mirrors (hg : g.Twins k g') (multiline : Bool) :
    Twins k (declaredValue g multiline) (declaredValue g' multiline) := by
  unfold declaredValue
  refine (eatsAhead_mirrors _ multiline).bind fun _ _ hfound => mirrors_ite (by rw [hfound]) (fun _ _ => ?_)
    fun _ _ => mirrors_pure alike_none
  refine (mirrors_trivia _).seq ?_
  refine (expectExpression_twins hg multiline).bind fun _ _ hvalue => ?_
  exact mirrors_pure hvalue.some

theorem declaratorRound_mirrors (hg : g.Twins k g') (multiline withValues : Bool)
    {ds es : List Declarator} (hds : Alike k ds es) :
    Mirrors k (Round.Rel (Alike k) (Alike k)) (declaratorRound g multiline withValues ds)
      (declaratorRound g' multiline withValues es) := by
  unfold declaratorRound
  refine (mirrors_trivia _).seq ?_
  refine twins_position.bind fun _ _ hstart => ?_
  refine binding_mirrors.bind fun x y hxy => ?_
  cases hxy with
  | none => exact (mirrors_report _ _).seq (mirrors_pure (.done hds.reverse))
  | @some name name' hname =>
    refine mirrors_ite .rfl (fun _ _ => (declaredValue_mirrors hg multiline).bind ?_)
      fun _ _ => (mirrors_pure (alike_none (k := k))).bind ?_
    -- With a value or without, the declarator is followed by a comma or the loop ends.
    all_goals
      refine fun value value' hvalue => (twins_spanFrom hstart).bind fun span span' hspan => ?_
      refine (eatsAhead_mirrors _ multiline).bind fun _ _ hfound => ?_
      have hbind : Alike k (Declarator.bind span name value) (.bind span' name' value') := by
        simp_all [Alike, Through.through, Declarator.through]
      exact mirrors_ite (by rw [hfound]) (fun _ _ => mirrors_pure (.again (hbind.cons hds)))
        fun _ _ => mirrors_pure (.done (hbind.cons hds).reverse)

/-- Which names have `@` can be told from what they look like. -/
theorem isMixed_eq {ds es : List Declarator} (h : Alike k ds es) : isMixed ds = isMixed es := by
  have hraw (l : Lens) (d : Declarator) : (d.through l).name.isRaw = d.name.isRaw := by
    cases d
    rfl
  have hsame (l : Lens) (ds : List Declarator) : isMixed (ds.map (·.through l)) = isMixed ds := by
    simp only [isMixed, List.any_map, Function.comp_def, hraw]
  rw [← hsame k.left ds, ← hsame k.right es]
  exact congrArg isMixed h

theorem declaration_twins (hg : g.Twins k g') (multiline withValues : Bool) {t u : Token}
    (htu : t.Matches k u) :
    Twins k (declaration g multiline withValues t) (declaration g' multiline withValues u) := by
  unfold declaration
  refine mirrors_someBlanks.seq ?_
  have hround := fun ds ds' (h : Alike k ds ds') => declaratorRound_mirrors hg multiline withValues h
  refine (mirrors_repeated hround alike_nil).bind fun _ _ hds => ?_
  refine (twins_spanFrom htu.start).bind fun _ _ hspan => ?_
  refine mirrors_ite (by rw [isMixed_eq hds]) (fun _ _ => ?_) fun _ _ => mirrors_pure (hspan.pair hds)
  exact (mirrors_reportAt hspan _ _).seq (mirrors_pure (hspan.pair hds))

theorem functionDeclarationAhead_mirrors :
    Mirrors k Eq functionDeclarationAhead functionDeclarationAhead := by
  unfold functionDeclarationAhead
  refine (mirrors_eatsWord (by decide)).bind fun _ _ hasync => ?_
  refine mirrors_ite (by rw [hasync]) (fun _ _ => mirrors_someBlanks.seq ?_) fun _ _ => ?_
  all_goals
    refine (mirrors_eatWord (by decide)).seq ?_
    refine mirrors_blanks.seq ?_
    refine (mirrors_eats _).seq ?_
    refine mirrors_blanks.seq ?_
    exact mirrors_requireState fun _ _ hst => by rw [hst.kind_eq]

theorem expectParameters_twins (hg : g.Twins k g') (multiline : Bool) :
    Twins k (expectParameters g multiline) (expectParameters g' multiline) := by
  unfold expectParameters
  refine (parameters_twins hg multiline).found.bind fun x y hxy => ?_
  cases hxy with
  | some hlist => exact mirrors_pure hlist
  | none =>
    refine (mirrors_expected _).seq ?_
    refine twins_here.bind fun _ _ hhere => ?_
    exact mirrors_pure ((alike_brackets hhere alike_none).pair alike_nil)

theorem functionDeclaration_twins (hg : g.Twins k g') (multiline : Bool) :
    Twins k (functionDeclaration g multiline) (functionDeclaration g' multiline) := by
  unfold functionDeclaration
  refine twins_position.bind fun _ _ hstart => ?_
  refine (mirrors_eatsWord (by decide)).bind fun _ _ hasync => ?_
  refine mirrors_blanks.seq ?_
  refine (mirrors_eatWord (by decide)).seq ?_
  refine mirrors_blanks.seq ?_
  refine (mirrors_eats _).bind fun _ _ hgenerator => ?_
  refine mirrors_blanks.seq ?_
  refine binding_mirrors.bind fun x y hxy => ?_
  cases hxy with
  | none => exact mirrors_fail
  | some hname =>
    -- The parameters and what the body declares are forgotten after the body.
    have hinner : Twins k
        (do let _ ← blanks; let params ← expectParameters g multiline; let body ← expectBlock g multiline
            return (params, body))
        (do let _ ← blanks; let params ← expectParameters g' multiline; let body ← expectBlock g' multiline
            return (params, body)) := by
      refine mirrors_blanks.seq ?_
      refine (expectParameters_twins hg multiline).bind fun _ _ hparams => ?_
      refine (expectBlock_twins hg multiline).bind fun _ _ hbody => ?_
      exact mirrors_pure (hparams.pair hbody)
    refine hinner.inScope.bind ?_
    rintro ⟨⟨brackets, params⟩, body⟩ ⟨⟨brackets', params'⟩, body'⟩ h
    obtain ⟨hlist, hbody⟩ := alike_pair_iff.mp h
    obtain ⟨hbrackets, hparams⟩ := alike_pair_iff.mp hlist
    refine (twins_spanFrom hstart).bind fun _ _ hspan => mirrors_pure ?_
    simp_all [Alike, Through.through, Statement.through]

/-! ### Control -/

theorem ifStatement_twins (hg : g.Twins k g') (multiline : Bool) :
    Twins k (ifStatement g multiline) (ifStatement g' multiline) := by
  unfold ifStatement
  refine twins_position.bind fun _ _ hstart => ?_
  refine mirrors_advance.seq ?_
  refine (condition_twins hg multiline).bind fun _ _ htest => ?_
  refine (body_twins hg multiline).bind fun _ _ htrue => ?_
  refine (goesOn_mirrors (by decide) multiline).bind fun _ _ helse => ?_
  refine mirrors_ite (by rw [helse]) (fun _ _ => ?_) fun _ _ => ?_
  · refine (body_twins hg multiline).bind fun _ _ hfalse => ?_
    refine (twins_spanFrom hstart).bind fun _ _ hspan => ?_
    refine mirrors_pure ?_
    simp_all [Alike, Through.through, Statement.through]
  · refine (twins_spanFrom hstart).bind fun _ _ hspan => ?_
    refine mirrors_pure ?_
    simp_all [Alike, Through.through, Statement.through]

theorem switchStatement_twins (hg : g.Twins k g') (multiline : Bool) :
    Twins k (switchStatement g multiline) (switchStatement g' multiline) := by
  unfold switchStatement
  refine twins_position.bind fun _ _ hstart => ?_
  refine mirrors_advance.seq ?_
  refine (condition_twins hg multiline).bind fun _ _ hvalue => ?_
  refine (expectBlock_twins hg multiline).bind fun _ _ hcases => ?_
  refine (twins_spanFrom hstart).bind fun _ _ hspan => ?_
  refine mirrors_pure ?_
  simp_all [Alike, Through.through, Statement.through]

theorem labelEnd_twins {start start' : Position} (hstart : Alike k start start')
    {test test' : Option Expression} (htest : Alike k test test') :
    Twins k (labelEnd start test) (labelEnd start' test') := by
  unfold labelEnd
  refine mirrors_blanks.seq ?_
  refine (mirrors_expect _).seq ?_
  refine (twins_spanFrom hstart).bind fun _ _ hspan => ?_
  refine mirrors_pure ?_
  simp_all [Alike, Through.through, Statement.through]

theorem caseLabel_twins (hg : g.Twins k g') (multiline : Bool) :
    Twins k (caseLabel g multiline) (caseLabel g' multiline) := by
  unfold caseLabel
  refine twins_position.bind fun _ _ hstart => ?_
  refine mirrors_advance.seq ?_
  refine mirrors_someBlanks.seq ?_
  refine (hg.expression multiline true).bind fun _ _ htest => ?_
  exact labelEnd_twins hstart htest.some

theorem defaultLabel_twins : Twins k defaultLabel defaultLabel := by
  unfold defaultLabel
  refine twins_position.bind fun _ _ hstart => ?_
  refine mirrors_advance.seq ?_
  exact labelEnd_twins hstart alike_none

theorem whileStatement_twins (hg : g.Twins k g') (multiline : Bool) :
    Twins k (whileStatement g multiline) (whileStatement g' multiline) := by
  unfold whileStatement
  refine twins_position.bind fun _ _ hstart => ?_
  refine mirrors_advance.seq ?_
  refine (condition_twins hg multiline).bind fun _ _ htest => ?_
  refine (body_twins hg multiline).bind fun _ _ hinner => ?_
  refine (twins_spanFrom hstart).bind fun _ _ hspan => ?_
  refine mirrors_pure ?_
  simp_all [Alike, Through.through, Statement.through]

theorem doCondition_twins (hg : g.Twins k g') (multiline : Bool) :
    Twins k (doCondition g multiline) (doCondition g' multiline) := by
  unfold doCondition
  refine (goesOn_mirrors (by decide) multiline).bind fun _ _ hwhile => mirrors_ite (by rw [hwhile])
    (fun _ _ => condition_twins hg multiline) fun _ _ => ?_
  refine (mirrors_expected _).seq ?_
  refine twins_here.bind fun _ _ hhere => ?_
  exact mirrors_pure (congrArg Expression.missing hhere)

theorem doStatement_twins (hg : g.Twins k g') (multiline : Bool) :
    Twins k (doStatement g multiline) (doStatement g' multiline) := by
  unfold doStatement
  refine twins_position.bind fun _ _ hstart => ?_
  refine mirrors_advance.seq ?_
  refine (body_twins hg multiline).bind fun _ _ hinner => ?_
  refine (doCondition_twins hg multiline).bind fun _ _ htest => ?_
  refine (twins_spanFrom hstart).bind fun _ _ hspan => ?_
  refine mirrors_pure ?_
  simp_all [Alike, Through.through, Statement.through]

/-! ### Loops over values -/

/-- Words that open a declaration are the same on both sides. -/
theorem variableKind_eq {t u : Token} (h : t.Matches k u) :
    (if t.kind = .word then VariableKind.ofWord? t.text else none) =
      (if u.kind = .word then VariableKind.ofWord? u.text else none) := by
  rw [h.kind]
  split
  · next hword => rw [h.word_eq (h.kind.trans hword)]
  · rfl

theorem loopBinding_twins (hg : g.Twins k g') : Twins k (loopBinding g) (loopBinding g') := by
  unfold loopBinding
  refine mirrors_current.bind fun t u htu => ?_
  rw [variableKind_eq htu]
  rcases (if u.kind = .word then VariableKind.ofWord? u.text else none) with _ | kind
  · exact (hg.expression true false).bind fun _ _ hvalue =>
      mirrors_pure (congrArg LoopHead.expression hvalue)
  · refine mirrors_advance.seq ((declaration_twins hg true false htu).bind ?_)
    rintro ⟨span, ds⟩ ⟨span', es⟩ h
    obtain ⟨hspan, hds⟩ := alike_pair_iff.mp h
    exact mirrors_pure (by simp_all [Alike, Through.through, LoopHead.through])

theorem ofOrIn_mirrors : Mirrors k Eq ofOrIn ofOrIn := by
  unfold ofOrIn
  refine (mirrors_eatsWord (by decide)).bind fun _ _ hof => mirrors_ite (by rw [hof])
    (fun _ _ => mirrors_pure rfl) fun _ _ => ?_
  exact (mirrors_eatWord (by decide)).seq (mirrors_pure rfl)

theorem valuesHead_twins (hg : g.Twins k g') : Twins k (valuesHead g) (valuesHead g') := by
  unfold valuesHead
  refine (mirrors_trivia _).seq ?_
  refine (loopBinding_twins hg).bind fun _ _ hhead => ?_
  refine (mirrors_trivia _).seq ?_
  refine ofOrIn_mirrors.bind fun _ _ hof => ?_
  refine (mirrors_trivia _).seq ?_
  refine (expectExpression_twins hg true).bind fun _ _ hvalue => ?_
  refine (mirrors_trivia _).seq ?_
  refine (mirrors_expect _).seq ?_
  exact mirrors_pure (hhead.pair (Alike.pair hof hvalue))

theorem countingStart_twins (hg : g.Twins k g') : Twins k (countingStart g) (countingStart g') := by
  unfold countingStart
  refine mirrors_current.bind fun t u htu => ?_
  rw [variableKind_eq htu]
  rcases (if u.kind = .word then VariableKind.ofWord? u.text else none) with _ | kind
  · refine (hg.expression true true).found.bind fun x y hxy => ?_
    cases hxy with
    | some hvalue => exact mirrors_pure (congrArg LoopHead.expression hvalue)
    | none => exact mirrors_pure rfl
  · refine mirrors_advance.seq ?_
    refine (declaration_twins hg true true htu).found.bind fun x y hxy => ?_
    cases hxy with
    | none => exact mirrors_pure rfl
    | @some a b hab =>
      obtain ⟨hspan, hds⟩ := alike_pair_iff.mp (show Alike k (a.1, a.2) (b.1, b.2) from hab)
      exact mirrors_pure (by simp_all [Alike, Through.through, LoopHead.through])

theorem countingHead_twins (hg : g.Twins k g') (multiline : Bool) :
    Twins k (countingHead g multiline) (countingHead g' multiline) := by
  unfold countingHead
  refine (mirrors_trivia _).seq ?_
  refine (countingStart_twins hg).bind fun _ _ hhead => ?_
  refine (mirrors_trivia _).seq ?_
  refine (mirrors_expect _).seq ?_
  refine (mirrors_trivia _).seq ?_
  refine (hg.expression true true).found.bind fun _ _ htest => ?_
  refine (mirrors_trivia _).seq ?_
  refine (mirrors_expect _).seq ?_
  refine (mirrors_trivia _).seq ?_
  refine (hg.expression true true).found.bind fun _ _ hupdate => ?_
  refine (mirrors_trivia _).seq ?_
  refine (mirrors_expect _).bind fun _ _ hclosed => ?_
  have hvalue := hhead.pair ((alike_of_optionRel htest).pair (alike_of_optionRel hupdate))
  exact mirrors_ite (by rw [hclosed]) (fun _ _ => mirrors_skipLine.seq (mirrors_pure hvalue))
    fun _ _ => mirrors_pure hvalue

theorem countingLoop_twins (hg : g.Twins k g') (multiline hasHead : Bool) {start start' : Position}
    (hstart : Alike k start start') :
    Twins k (countingLoop g multiline hasHead start) (countingLoop g' multiline hasHead start') := by
  -- Without a head in brackets there is nothing to count with.
  have hnothing : Alike k (LoopHead.nothing, (none : Option Expression), (none : Option Expression))
      (.nothing, none, none) := Alike.pair (by simp [Alike, Through.through, LoopHead.through])
    (alike_none.pair alike_none)
  unfold countingLoop
  refine mirrors_ite .rfl (fun _ _ => (countingHead_twins hg multiline).bind ?_)
    fun _ _ => (mirrors_pure hnothing).bind ?_
  all_goals
    rintro ⟨head, test, update⟩ ⟨head', test', update'⟩ h
    obtain ⟨hhead, hrest⟩ := alike_pair_iff.mp h
    obtain ⟨htest, hupdate⟩ := alike_pair_iff.mp hrest
    refine (body_twins hg multiline).bind fun _ _ hinner => ?_
    refine (twins_spanFrom hstart).bind fun _ _ hspan => ?_
    refine mirrors_pure ?_
    simp_all [Alike, Through.through, Statement.through]

theorem loopAfter_twins (hg : g.Twins k g') (multiline isAwait hasHead : Bool) {start start' : Position}
    (hstart : Alike k start start') :
    Twins k (loopAfter g multiline isAwait hasHead start) (loopAfter g' multiline isAwait hasHead start') := by
  unfold loopAfter
  -- A head over values is tried first, but only if there are brackets to try it in.
  have hhead := (mirrors_require (k := k) (c := hasHead) rfl).seq (valuesHead_twins hg)
  refine hhead.attempt.bind fun x y hxy => ?_
  cases hxy with
  | none => exact countingLoop_twins hg multiline hasHead hstart
  | @some a b hab =>
    obtain ⟨head, isOf, value⟩ := a
    obtain ⟨head', isOf', value'⟩ := b
    obtain ⟨hhead, hrest⟩ := alike_pair_iff.mp hab
    obtain ⟨hof, hvalue⟩ := alike_pair_iff.mp hrest
    obtain rfl : isOf = isOf' := hof
    refine (body_twins hg multiline).bind fun _ _ hinner => ?_
    refine (twins_spanFrom hstart).bind fun _ _ hspan => ?_
    refine mirrors_pure ?_
    cases isOf <;> simp_all [Alike, Through.through, Statement.through]

theorem forStatement_twins (hg : g.Twins k g') (multiline : Bool) :
    Twins k (forStatement g multiline) (forStatement g' multiline) := by
  unfold forStatement
  refine Mirrors.inScope ?_
  refine twins_position.bind fun _ _ hstart => ?_
  refine mirrors_advance.seq ?_
  refine mirrors_blanks.seq ?_
  refine (mirrors_eatsWord (by decide)).bind fun _ _ hawait => ?_
  refine mirrors_blanks.seq ?_
  refine (mirrors_expect _).bind fun _ _ hopened => ?_
  subst hawait hopened
  exact loopAfter_twins hg multiline _ _ hstart

/-! ### Failures, jumps and values -/

theorem caughtWord_twins : Twins k caughtWord caughtWord := by
  unfold caughtWord
  have hnone : Twins k (do report .identifierExpected []; return (none : Option String))
      (do report .identifierExpected []; return none) :=
    (mirrors_report _ _).seq (mirrors_pure alike_none)
  refine fun s t hst => mirrorsAt_look_bind (mirrorsAt_eats_bind hst (fun hword => ?_) hnone)
  rw [hst.current.word_eq hword]
  refine mirrors_ite .rfl (fun _ _ => ?_) fun _ _ => hnone
  exact (mirrors_declare rfl).seq (mirrors_pure (hst.current.word_alike hword).some)

theorem caughtName_twins : Twins k caughtName caughtName := by
  unfold caughtName
  refine mirrors_blanks.seq ?_
  refine caughtWord_twins.bind fun _ _ hname => ?_
  refine mirrors_blanks.seq ?_
  refine (mirrors_expect _).seq ?_
  exact mirrors_pure hname

theorem handler_twins (hg : g.Twins k g') (multiline : Bool) :
    Twins k (handler g multiline) (handler g' multiline) := by
  unfold handler
  refine (positionAhead_twins multiline).bind fun _ _ hstart => ?_
  refine (goesOn_mirrors (by decide) multiline).bind fun _ _ hcatch => ?_
  refine mirrors_ite (by rw [hcatch]) (fun _ _ => ?_) fun _ _ => mirrors_pure alike_nil
  refine Mirrors.bind (R := Alike k) (Mirrors.inScope ?_) ?_
  · -- The name of what was caught may be left out, with its brackets.
    refine mirrors_blanks.seq ?_
    refine (mirrors_eats _).bind fun _ _ hopened => ?_
    refine mirrors_ite (by rw [hopened]) (fun _ _ => caughtName_twins.bind ?_)
      fun _ _ => (mirrors_pure (alike_none (k := k))).bind ?_
    all_goals
      exact fun _ _ hname => (expectBlock_twins hg multiline).bind fun _ _ hinner =>
        mirrors_pure (hname.pair hinner)
  · rintro ⟨name, inner⟩ ⟨name', inner'⟩ h
    obtain ⟨hname, hinner⟩ := alike_pair_iff.mp h
    refine (twins_spanFrom hstart).bind fun _ _ hspan => mirrors_pure (Alike.cons ?_ alike_nil)
    simp_all [Alike, Through.through, Clause.through]

theorem finalizer_twins (hg : g.Twins k g') (multiline : Bool) :
    Twins k (finalizer g multiline) (finalizer g' multiline) := by
  unfold finalizer
  refine (positionAhead_twins multiline).bind fun _ _ hstart => ?_
  refine (goesOn_mirrors (by decide) multiline).bind fun _ _ hfinally => ?_
  refine mirrors_ite (by rw [hfinally]) (fun _ _ => ?_) fun _ _ => mirrors_pure alike_nil
  refine (expectBlock_twins hg multiline).bind fun _ _ hinner => ?_
  refine (twins_spanFrom hstart).bind fun _ _ hspan => ?_
  refine mirrors_pure (Alike.cons ?_ alike_nil)
  simp_all [Alike, Through.through, Clause.through]

theorem tryStatement_twins (hg : g.Twins k g') (multiline : Bool) :
    Twins k (tryStatement g multiline) (tryStatement g' multiline) := by
  unfold tryStatement
  refine twins_position.bind fun _ _ hstart => ?_
  refine mirrors_advance.seq ?_
  refine (expectBlock_twins hg multiline).bind fun _ _ hinner => ?_
  refine (handler_twins hg multiline).bind fun _ _ hcaught => ?_
  refine (finalizer_twins hg multiline).bind fun _ _ hfinished => ?_
  refine (twins_spanFrom hstart).bind fun _ _ hspan => ?_
  have hclauses := hcaught.append hfinished
  -- A lone `try` is reported, and is a statement all the same.
  refine mirrors_ite (by rw [hclauses.isEmpty_eq])
    (fun _ _ => (mirrors_reportAt hspan _ _).seq (mirrors_pure ?_))
    fun _ _ => mirrors_pure ?_
  all_goals simp_all [Alike, Through.through, Statement.through]

theorem throwStatement_twins (hg : g.Twins k g') (multiline : Bool) :
    Twins k (throwStatement g multiline) (throwStatement g' multiline) := by
  unfold throwStatement
  refine twins_position.bind fun _ _ hstart => ?_
  refine mirrors_advance.seq ?_
  refine mirrors_blanks.seq ?_
  refine (expectExpression_twins hg multiline).bind fun _ _ hvalue => ?_
  refine (twins_spanFrom hstart).bind fun _ _ hspan => ?_
  refine mirrors_pure ?_
  exact congrArg₂ Statement.throw hspan hvalue

theorem returnStatement_twins (hg : g.Twins k g') (multiline : Bool) :
    Twins k (returnStatement g multiline) (returnStatement g' multiline) := by
  unfold returnStatement
  have hvalue := (mirrors_blanks (k := k)).seq (hg.expression multiline true)
  refine twins_position.bind fun _ _ hstart => ?_
  refine mirrors_advance.seq ?_
  refine hvalue.attempt.bind fun _ _ hxy => ?_
  refine (twins_spanFrom hstart).bind fun _ _ hspan => ?_
  refine mirrors_pure ?_
  have hxy := alike_of_optionRel hxy
  simp_all [Alike, Through.through, Statement.through]

/-- A jump and its label, which is a word. -/
theorem jump_twins : Twins k jump jump := by
  unfold jump
  refine twins_position.bind fun _ _ hstart => ?_
  refine mirrors_advance.seq ?_
  refine Mirrors.bind (Mirrors.attempt (R := Alike k) ?_) fun x y hxy => ?_
  · refine mirrors_blanks.seq ?_
    refine mirrors_eatName.bind fun t u ⟨_, htext, hname⟩ => ?_
    rw [htext]
    exact (mirrors_require rfl).seq (mirrors_pure hname)
  · refine (twins_spanFrom hstart).bind fun _ _ hspan => ?_
    exact mirrors_pure (hspan.pair (alike_of_optionRel hxy))

/-! ### Imports -/

theorem importIn_mirrors : Mirrors k Eq importIn importIn := by
  unfold importIn
  exact (mirrors_eatWord (by decide)).seq mirrors_someBlanks

/-- The new name of an import is the same, and it looks the same. -/
theorem importAlias_mirrors :
    Mirrors k (fun x y => x = y ∧ Alike k y y) importAlias importAlias := by
  unfold importAlias
  refine (mirrors_eatWord (by decide)).seq ?_
  refine mirrors_blanks.seq ?_
  refine mirrors_eatName.bind fun t u ⟨_, htext, hname⟩ => ?_
  rw [htext]
  exact (mirrors_require rfl).seq (mirrors_pure ⟨rfl, hname⟩)

theorem abandonImport_twins {start start' : Position} (hstart : Alike k start start') (m : Message)
    (arguments : List String) :
    Twins k (abandonImport start m arguments) (abandonImport start' m arguments) := by
  unfold abandonImport
  refine (mirrors_report m arguments).seq ?_
  refine mirrors_skipLine.seq ?_
  refine (twins_spanFrom hstart).bind fun _ _ hspan => ?_
  exact mirrors_pure (congrArg Statement.missing hspan)

/-- A path as it is written looks the same, though an end of line in it may differ. -/
theorem importPath_mirrors (hg : g.Twins k g') :
    Mirrors k (fun x y => k.left.text x.1 = k.right.text y.1 ∧ x.2 = y.2) (importPath g) (importPath g') := by
  unfold importPath
  refine mirrors_state.bind fun s t hst => ?_
  rw [hst.kind_eq]
  refine (quoted_twins hg t.kind).bind ?_
  rintro ⟨parts, closing⟩ ⟨parts', closing'⟩ h
  obtain ⟨-, hclosing⟩ := alike_pair_iff.mp h
  refine mirrors_cursor.bind fun m n hcursor => mirrors_pure ⟨?_, ?_⟩
  · -- As many tokens have been read on both sides since the quote, so the same stretch is taken.
    have hlength : m - s.cursor = n - t.cursor := by
      have hbefore := hst.cursor
      unfold CursorsMatch at hcursor
      omega
    rw [hlength]
    exact joined_chars (List.forall₂_take _ hst.rest)
  · cases closing <;> cases closing'
    · rfl
    · cases hclosing
    · cases hclosing
    · rfl

theorem importFrom_twins (hg : g.Twins k g') {start start' : Position} (hstart : Alike k start start')
    (isIn : Bool) {name : String} (hname : Alike k name name) :
    Twins k (importFrom g start isIn name) (importFrom g' start' isIn name) := by
  unfold importFrom
  refine mirrors_blanks.seq ?_
  refine importAlias_mirrors.attempt.bind fun newName newName' halias => ?_
  refine mirrors_blanks.seq ?_
  refine (mirrors_eatsWord (by decide)).bind fun _ _ hfrom => ?_
  refine mirrors_ite (by rw [hfrom]) (fun _ _ => ?_) fun _ _ => abandonImport_twins hstart _ _
  refine mirrors_blanks.seq ?_
  refine mirrors_state.bind fun s t hst => ?_
  refine mirrors_ite (by rw [hst.kind_eq]) (fun _ _ => ?_) fun _ _ => abandonImport_twins hstart _ _
  -- Another name for what is imported is a word, or there is none on either side.
  obtain ⟨rfl, hnew⟩ : newName = newName' ∧ Alike k newName' newName' := by
    cases halias with
    | none => exact ⟨rfl, alike_none⟩
    | some h => exact ⟨congrArg some h.1, h.2.some⟩
  refine (importPath_mirrors hg).bind ?_
  rintro ⟨path, closed⟩ ⟨path', closed'⟩ ⟨hpath, hclosed⟩
  obtain rfl : closed = closed' := hclosed
  refine (twins_spanFrom hstart).bind fun span span' hspan => mirrors_ite .rfl (fun _ _ => ?_)
    fun _ _ => mirrors_pure (congrArg Statement.missing hspan)
  have himport : Alike k (Import.mk span isIn name newName path) ⟨span', isIn, name, newName, path'⟩ := by
    simp_all [Alike, Through.through, Import.through]
  have hstatement : Alike k (Statement.imported ⟨span, isIn, name, newName, path⟩)
      (.imported ⟨span', isIn, name, newName, path'⟩) := congrArg Statement.imported himport
  have hadd := (mirrors_addImport himport).seq (mirrors_pure hstatement)
  exact mirrors_ite .rfl (fun _ _ => (mirrors_declare rfl).seq hadd) fun _ _ => hadd

theorem importStatement_twins (hg : g.Twins k g') : Twins k (importStatement g) (importStatement g') := by
  unfold importStatement
  refine twins_position.bind fun _ _ hstart => ?_
  refine mirrors_advance.seq ?_
  refine mirrors_someBlanks.seq ?_
  refine importIn_mirrors.attempt.bind fun isIn isIn' hin => ?_
  refine mirrors_current.bind fun t u htu => ?_
  -- No end of line passes for a name.
  have htest : isIdentifier t.text = isIdentifier u.text := htu.test (by decide)
  rw [isSome_eq_of_rel hin, htu.kind, htest]
  refine mirrors_ite .rfl (fun _ _ => mirrors_advance.seq ?_) fun _ _ => ?_
  all_goals
    refine mirrors_ite .rfl (fun h _ => ?_) fun _ _ => abandonImport_twins hstart _ _
    have hword : t.kind = .word := by
      rw [htu.kind]
      exact of_decide_eq_true (Bool.and_eq_true_iff.mp h).1
    rw [htu.word_eq hword]
    exact importFrom_twins hg hstart _ (htu.word_alike hword)

/-! ### All statements -/

theorem expressionStatement_twins (hg : g.Twins k g') (multiline : Bool) :
    Twins k (expressionStatement g multiline) (expressionStatement g' multiline) := by
  unfold expressionStatement
  exact (hg.expression multiline true).bind fun _ _ hvalue =>
    mirrors_pure (congrArg Statement.expression hvalue)

theorem variableStatement_twins (hg : g.Twins k g') (multiline : Bool) {t u : Token} (htu : t.Matches k u)
    (htext : t.text = u.text) :
    Twins k (variableStatement g multiline t) (variableStatement g' multiline u) := by
  unfold variableStatement
  rw [htext]
  rcases VariableKind.ofWord? u.text with _ | kind
  · exact mirrors_fail
  · refine mirrors_advance.seq ((declaration_twins hg multiline true htu).bind ?_)
    rintro ⟨span, ds⟩ ⟨span', es⟩ h
    obtain ⟨hspan, hds⟩ := alike_pair_iff.mp h
    exact mirrors_pure (by simp_all [Alike, Through.through, Statement.through])

theorem wordStatement_twins (hg : g.Twins k g') (multiline : Bool) {t u : Token} (htu : t.Matches k u)
    (htext : t.text = u.text) :
    Twins k (wordStatement g multiline t) (wordStatement g' multiline u) := by
  have hfunction : Twins k
      (do if ← succeeds functionDeclarationAhead then functionDeclaration g multiline
          else expressionStatement g multiline)
      (do if ← succeeds functionDeclarationAhead then functionDeclaration g' multiline
          else expressionStatement g' multiline) :=
    functionDeclarationAhead_mirrors.succeeds.bind fun x y hxy =>
      mirrors_ite (by rw [hxy]) (fun _ _ => functionDeclaration_twins hg multiline)
        fun _ _ => expressionStatement_twins hg multiline
  unfold wordStatement
  rw [htext]
  split
  -- declarations of variables, then of functions
  iterate 3 exact variableStatement_twins hg multiline htu htext
  iterate 2 exact hfunction
  -- one statement for each of the other words, and else an expression
  · exact ifStatement_twins hg multiline
  · exact switchStatement_twins hg multiline
  · exact caseLabel_twins hg multiline
  · exact defaultLabel_twins
  · exact whileStatement_twins hg multiline
  · exact doStatement_twins hg multiline
  · exact forStatement_twins hg multiline
  · exact tryStatement_twins hg multiline
  · exact throwStatement_twins hg multiline
  · exact importStatement_twins hg
  · refine jump_twins.bind fun x y hxy => ?_
    obtain ⟨hspan, hlabel⟩ := alike_pair_iff.mp hxy
    exact mirrors_pure (congrArg₂ Statement.leave hspan hlabel)
  · refine jump_twins.bind fun x y hxy => ?_
    obtain ⟨hspan, hlabel⟩ := alike_pair_iff.mp hxy
    exact mirrors_pure (congrArg₂ Statement.next hspan hlabel)
  · exact returnStatement_twins hg multiline
  · exact mirrors_advance.seq (mirrors_pure (congrArg Statement.debugger htu.span))
  · exact expressionStatement_twins hg multiline

theorem bareStatement_twins (hg : g.Twins k g') (multiline : Bool) :
    Twins k (bareStatement g multiline) (bareStatement g' multiline) := by
  unfold bareStatement
  refine mirrors_current.bind fun t u htu => ?_
  rw [← htu.kind]
  split
  · exact (block_twins hg multiline).bind fun _ _ hblock => mirrors_pure (congrArg Statement.block hblock)
  · exact mirrors_advance.seq (mirrors_pure (congrArg Statement.empty htu.span))
  · next hword => exact wordStatement_twins hg multiline htu (htu.word_eq hword)
  · exact expressionStatement_twins hg multiline

theorem statement_twins (hg : g.Twins k g') (multiline : Bool) :
    Twins k (statement g multiline) (statement g' multiline) := by
  unfold statement
  have hend := ((mirrors_blanks (k := k)).seq (mirrors_eat .semicolon)).attempt
  refine (bareStatement_twins hg multiline).bind fun _ _ hresult => ?_
  refine hend.seq ?_
  exact mirrors_pure hresult

/-! ### Levels -/

theorem passedOver_twins : Twins k passedOver passedOver := by
  unfold passedOver
  refine twins_here.bind fun _ _ hhere => ?_
  refine mirrors_skipLine.seq ?_
  exact mirrors_pure hhere

theorem refused_twins : refused.Twins k refused where
  expression _ _ := passedOver_twins.bind fun _ _ hspan => mirrors_pure (congrArg Expression.missing hspan)
  operand _ := twins_here.bind fun _ _ hspan => mirrors_pure (congrArg Expression.missing hspan)
  statement _ := passedOver_twins.bind fun _ _ hspan => mirrors_pure (congrArg Statement.missing hspan)

theorem guarded_mirrors {α : Type} {R : α → α → Prop} {inner inner' instead instead' : Parser α}
    (h : Mirrors k R inner inner') (h' : Mirrors k R instead instead') :
    Mirrors k R (guarded inner instead) (guarded inner' instead') := by
  unfold guarded
  refine mirrors_state.bind fun s t hst => ?_
  rw [hst.depth]
  refine mirrors_ite .rfl (fun _ _ => h.deeper) fun _ _ => mirrors_ite .rfl (fun _ _ => ?_) fun _ _ => h'
  exact (mirrors_report _ _).seq h'

theorem levelled_twins (hg : g.Twins k g') : (levelled g).Twins k (levelled g') where
  expression multiline binary :=
    (guarded_mirrors (hg.expression multiline binary) (refused_twins.expression multiline binary)).rewind
  operand multiline := guarded_mirrors (hg.operand multiline) (refused_twins.operand multiline)
  statement multiline :=
    (guarded_mirrors (hg.statement multiline) (refused_twins.statement multiline)).rewind

theorem productions_twins (hg : g.Twins k g') : (productions g).Twins k (productions g') where
  expression := expression_twins hg
  operand := prefixed_twins hg
  statement := statement_twins hg

/-- **What is read does not depend on where the text stands nor on what was found before it.** -/
theorem nested_twins (n : Nat) : (nested n).Twins k (nested n) := by
  induction n with
  | zero => exact levelled_twins refused_twins
  | succ n ih => exact levelled_twins (productions_twins ih)

/-! ### A whole story -/

theorem moduleRound_mirrors {ls ls' : List Line} (hlines : Alike k ls ls') :
    Mirrors k (Round.Rel (Alike k) (Alike k)) (moduleRound ls) (moduleRound ls') := by
  unfold moduleRound
  refine mirrors_isEof.bind fun x y hxy => mirrors_ite (by rw [hxy]) (fun _ _ => ?_) fun _ _ => ?_
  · exact mirrors_pure (.done hlines.reverse)
  · refine (line_twins (nested_twins _)).withProgress.bind fun x y hxy => ?_
    cases hxy with
    | some hline => exact mirrors_pure (.again (hline.cons hlines))
    | none => exact mirrors_pure (.again hlines)

theorem lines_twins : Twins k lines lines :=
  mirrors_repeated (fun _ _ hlines => moduleRound_mirrors hlines) alike_nil

end Story.Grammar

namespace Story

variable {k : Likeness} {s t : State}

/-- Lists that have grown from nothing look the same. -/
theorem Grown.alike {α : Type} [Through α] {start start' xs ys : List α}
    (h : Grown (Alike k) start start' xs ys) (hstart : start = []) (hstart' : start' = []) : Alike k xs ys := by
  obtain ⟨new, new', rfl, rfl, hall⟩ := h
  subst hstart hstart'
  rw [List.append_nil, List.append_nil]
  induction hall with
  | nil => exact alike_nil
  | cons hxy _ ih => exact hxy.cons ih

/-- **Stories that read alike from the start look the same,** and so do the reports about them. -/
theorem State.Matches.parseModule (hst : s.Matches k t) (hzero : Alike k Position.zero .zero)
    (hfirst : k.first.reports = [] ∧ k.first.imports = [])
    (hsecond : k.second.reports = [] ∧ k.second.imports = [])
    (path : String) :
    (s.parseModule path).module.through k.left = (t.parseModule path).module.through k.right ∧
      Alike k (Grammar.lines s).2.reports (Grammar.lines t).2.reports := by
  obtain ⟨hlines, hstate⟩ := Grammar.lines_twins hst
  -- Nothing was reported or imported before the start, so all of it is new and looks alike.
  have hreports := hstate.reports.alike hfirst.1 hsecond.1
  have himports := (hstate.imports.alike hfirst.2 hsecond.2).reverse
  refine ⟨?_, hreports⟩
  have hspan : Alike k (Span.mk .zero (Grammar.lines s).2.current.stop)
      (Span.mk .zero (Grammar.lines t).2.current.stop) :=
    alike_span hzero hstate.current.stop
  have hall : Alike k ((Grammar.lines s).1.getD []) ((Grammar.lines t).1.getD []) := by
    generalize (Grammar.lines s).1 = x at hlines
    generalize (Grammar.lines t).1 = y at hlines
    cases hlines with
    | none => exact alike_nil
    | some h => exact h
  change Module.mk _ path (Line.allThrough k.left _) _ = Module.mk _ path (Line.allThrough k.right _) _
  rw [Line.allThrough_eq_map, Line.allThrough_eq_map]
  exact congr (congrArg₂ (Module.mk · path ·) hspan hall) himports

end Story
