import Story.Proofs.Mirrors

/-!
# Lines of a story mirror themselves

Two readers that start in states which match go through the same productions and read things that look alike.
There is one lemma for each production of lines, texts and lists. All of them take what they need of the inner
levels from two readers `g` and `g'` that mirror each other.

* `Nested.Twins` — the readers of an inner level mirror each other;
* `Grammar.bracketed_twins` — lists, whatever their items are;
* `Grammar.quoted_twins`, `Grammar.textContent_twins` — texts with code in them (`Content.Matches`);
* `Grammar.line_twins` — lines, and `Grammar.block_twins` — blocks.

What decides how a line goes on is asked of the first tokens, which are of the same kinds on both sides. The
texts of tokens are compared only with words that stand on one line.
-/

namespace Story

variable {k : Likeness} {α : Type}

/-- The readers mirror each other. -/
structure Nested.Twins (k : Likeness) (g g' : Nested) : Prop where
  expression (multiline binary : Bool) :
    Parser.Twins k (g.expression multiline binary) (g'.expression multiline binary)
  operand (multiline : Bool) : Parser.Twins k (g.operand multiline) (g'.operand multiline)
  statement (multiline : Bool) : Parser.Twins k (g.statement multiline) (g'.statement multiline)

namespace Grammar

open Story.Parser

/-! ### Lists -/

section Lists

variable [Through α] {style : ListStyle} {item item' : List α → Parser α}

/-- Lists that are being read side by side. -/
def ListProgress.Matches (k : Likeness) (p q : ListProgress α) : Prop :=
  Alike k p.items q.items ∧ p.needsSeparator = q.needsSeparator

/-- The rounds of two lists. -/
abbrev ListsMirror (k : Likeness) (p q : Parser (Round (ListProgress α) (List α × Option Span))) : Prop :=
  Mirrors k (Round.Rel (ListProgress.Matches k) (Alike k)) p q

/-- The rounds of two lists, in two states. -/
abbrev ListsMirrorAt (k : Likeness) (p q : Parser (Round (ListProgress α) (List α × Option Span)))
    (s t : State) : Prop :=
  MirrorsAt k (Round.Rel (ListProgress.Matches k) (Alike k)) p q s t

variable {p q : ListProgress α}

/-- What is no item is reported with its text, so it must not be the end of a line. -/
theorem listItem_mirrorsAt (hitem : ∀ xs ys, Alike k xs ys → Twins k (item xs) (item' ys))
    (hpq : p.Matches k q) {s t : State} (hst : s.Matches k t) (hkind : s.kind ≠ .endline) :
    ListsMirrorAt k (listItem style item p) (listItem style item' q) s t := by
  unfold listItem
  refine mirrorsAt_look_bind (mirrorsAt_attempt_bind (hitem _ _ hpq.1) hst ?_ fun x y hxy => ?_)
  · -- No item: the text of the token is put into the report, and off the ends of lines texts agree.
    have htext : s.current.text = t.current.text := hst.current.text_eq hkind
    have hreport : ListsMirror k
        (do reportAt s.current.span .unexpectedToken [t.current.text]; return .again p)
        (do reportAt t.current.span .unexpectedToken [t.current.text]; return .again q) :=
      (mirrors_reportAt hst.current.span _ _).seq (mirrors_pure (.again hpq))
    rw [← htext] at hreport
    nth_rewrite 2 [htext] at hreport
    exact hreport hst.advance
  · -- An item, after which both readers pass over a token or neither does.
    have hnext := hxy.cons hpq.1
    refine mirrors_cursor.bind fun _ _ hafter => ?_
    refine mirrors_ite (CursorsMatch.beq_iff hst.cursor hafter) (fun _ _ => ?_) fun _ _ =>
      mirrors_pure (.again ⟨hnext, rfl⟩)
    exact mirrors_advance.seq (mirrors_pure (.again ⟨hnext, rfl⟩))

theorem listElement_mirrorsAt (hitem : ∀ xs ys, Alike k xs ys → Twins k (item xs) (item' ys))
    (hpq : p.Matches k q) {s t : State} (hst : s.Matches k t) (hkind : s.kind ≠ .endline) :
    ListsMirrorAt k (listElement style item p) (listElement style item' q) s t := by
  unfold listElement
  rcases style.separator with _ | separator
  · exact listItem_mirrorsAt hitem hpq hst hkind
  · refine mirrorsAt_state_bind (mirrorsAt_ite (by rw [hst.kind_eq]) (fun _ => ?_) fun _ =>
      mirrorsAt_ite (by rw [hpq.2]) (fun _ => ?_) fun _ => listItem_mirrorsAt hitem hpq hst hkind)
    · -- A separator; a second one in a row is reported before it is passed over.
      have htext : s.current.text = t.current.text := hst.current.text_eq hkind
      have hnext : ListsMirror k (do change .advance; return .again ⟨p.items, false⟩)
          (do change .advance; return .again ⟨q.items, false⟩) :=
        mirrors_advance.seq (mirrors_pure (.again ⟨hpq.1, rfl⟩))
      rw [htext]
      exact mirrorsAt_ite (by rw [hpq.2]) (fun _ => hnext (hst.report _ _)) fun _ => hnext hst
    · exact listItem_mirrorsAt hitem hpq (hst.report _ _) hkind

theorem listRound_mirrors (hitem : ∀ xs ys, Alike k xs ys → Twins k (item xs) (item' ys))
    (hpq : p.Matches k q) : ListsMirror k (listRound style item p) (listRound style item' q) := by
  unfold listRound
  refine mirrors_trivia_bind fun s t hst htrivia => mirrorsAt_state_bind <|
    mirrorsAt_ite (by rw [hst.kind_eq]) (fun _ => ?_) fun _ =>
    mirrorsAt_ite (by rw [hst.isEof_eq, hst.isLineEnd_eq]) (fun _ => ?_) fun hopen => ?_
  · exact (mirrors_advance.seq (mirrors_pure (.done (hpq.1.reverse.pair hst.current.span.some)))) hst
  · exact ((mirrors_expected _).seq (mirrors_pure (.done (hpq.1.reverse.pair alike_none)))) hst
  · -- A list over several lines has skipped the ends of lines; any other list ends at the first one.
    refine listElement_mirrorsAt hitem hpq hst fun hend => ?_
    rcases hmultiline : style.multiline with _ | _
    · simp [hmultiline, State.isLineEnd, hend, TokenKind.isLineEnd] at hopen
    · exact htrivia hmultiline hend

theorem bracketed_twins (hitem : ∀ xs ys, Alike k xs ys → Twins k (item xs) (item' ys)) :
    Twins k (bracketed style item) (bracketed style item') := by
  unfold bracketed
  refine (mirrors_eat _).bind fun t u htu => ?_
  refine (mirrors_repeated (fun _ _ => listRound_mirrors hitem) ⟨alike_nil, rfl⟩).bind ?_
  rintro ⟨xs, c⟩ ⟨ys, d⟩ hlists
  obtain ⟨hitems, hclosing⟩ := alike_pair_iff.mp hlists
  exact mirrors_pure ((alike_brackets htu.span hclosing).pair hitems)

end Lists

/-! ### Texts -/

/-- Texts that are being read side by side. -/
structure Content.Matches (k : Likeness) (c d : Content) : Prop where
  parts : Alike k c.parts d.parts
  pending : Option.Rel (fun x y => Alike k x.1 y.1 ∧ k.left.text x.2 = k.right.text y.2) c.pending d.pending

namespace Content.Matches

variable {c d : Content} {p q : Position}

theorem empty : Content.empty.Matches k .empty := ⟨alike_nil, .none⟩

theorem flush (h : c.Matches k d) (hpq : Alike k p q) : (c.flush p).Matches k (d.flush q) := by
  obtain ⟨parts, pending⟩ := c
  obtain ⟨parts', pending'⟩ := d
  obtain ⟨hparts, hpending⟩ := h
  -- Either both have text that waits for its end, or neither has.
  cases hpending with
  | none => exact ⟨hparts, .none⟩
  | some hchunk =>
    obtain ⟨hstart, htext⟩ := hchunk
    refine ⟨Alike.cons ?_ hparts, .none⟩
    exact congrArg₂ TextPart.chunk (alike_span hstart hpq) htext

theorem extend (h : c.Matches k d) (hpq : Alike k p q) {x y : String}
    (hxy : k.left.text x = k.right.text y) : (c.extend p x).Matches k (d.extend q y) := by
  obtain ⟨parts, pending⟩ := c
  obtain ⟨parts', pending'⟩ := d
  obtain ⟨hparts, hpending⟩ := h
  cases hpending with
  | none => exact ⟨hparts, .some ⟨hpq, hxy⟩⟩
  | some hchunk =>
    refine ⟨hparts, .some ⟨hchunk.1, ?_⟩⟩
    rw [k.left.text_append, k.right.text_append, hchunk.2, hxy]

theorem add (h : c.Matches k d) {x y : TextPart} (hxy : Alike k x y) : (c.add x).Matches k (d.add y) :=
  ⟨hxy.cons h.parts, h.pending⟩

theorem finish (h : c.Matches k d) (hpq : Alike k p q) : Alike k (c.finish p) (d.finish q) :=
  (h.flush hpq).parts.reverse

end Content.Matches

variable {g g' : Nested} {c d : Content}

theorem splice_twins (hg : g.Twins k g') : Twins k (splice g) (splice g') := by
  unfold splice
  refine (mirrors_eat _).bind fun t u htu => ?_
  refine (mirrors_requireState fun s t hst => ?_).seq ?_
  · rw [hst.kind_eq, hst.isLineEnd_eq, hst.atLineComment_eq]
  refine (hg.expression false false).bind fun _ _ hvalue => ?_
  refine (twins_spanFrom htu.start).bind fun _ _ hspan => ?_
  exact mirrors_pure (congrArg₂ TextPart.splice hspan hvalue)

theorem starOrSplice_mirrors (hg : g.Twins k g') (hcd : c.Matches k d) :
    Mirrors k (Content.Matches k) (starOrSplice g c) (starOrSplice g' d) := by
  unfold starOrSplice
  refine mirrors_current.bind fun t u htu => ?_
  refine (splice_twins hg).attempt.bind fun x y hxy => ?_
  cases hxy with
  | some hxy => exact mirrors_pure ((hcd.flush htu.start).add hxy)
  | none => exact mirrors_advance.seq (mirrors_pure (hcd.extend htu.start htu.chars))

theorem textContent_twins (hg : g.Twins k g') : Twins k (textContent g) (textContent g') := by
  refine mirrors_repeated (I := Content.Matches k) (fun c d hcd => ?_) .empty
  unfold textRound
  refine mirrors_state.bind fun s t hst => ?_
  refine mirrors_ite (by rw [hst.isLineEnd_eq]) (fun _ _ => mirrors_pure (.done (hcd.finish hst.position)))
    fun _ _ => mirrors_ite (by rw [hst.kind_eq]) (fun _ _ => ?_) fun _ _ =>
      mirrors_ite (by rw [hst.kind_eq]) (fun _ _ => ?_) fun _ _ => ?_
  · -- After a backslash comes a plain token, if the line does not end there.
    have hflushed := hcd.flush hst.position
    refine mirrors_advance.seq ?_
    refine mirrors_current.bind fun x y hxy => ?_
    refine mirrors_ite (by rw [hxy.kind]) (fun _ _ => mirrors_pure (.again hflushed)) fun _ _ => ?_
    exact mirrors_advance.seq (mirrors_pure (.again (hflushed.extend hxy.start hxy.chars)))
  · exact (starOrSplice_mirrors hg hcd).bind fun _ _ h => mirrors_pure (.again h)
  · exact mirrors_advance.seq (mirrors_pure (.again (hcd.extend hst.position hst.current.chars)))

theorem quotedRound_mirrors (hg : g.Twins k g') (quote : TokenKind) {opening opening' : Span}
    (hopening : Alike k opening opening') (hcd : c.Matches k d) :
    Mirrors k (Round.Rel (Content.Matches k) (Alike k)) (quotedRound g quote opening c)
      (quotedRound g' quote opening' d) := by
  unfold quotedRound
  refine mirrors_state.bind fun s t hst => ?_
  have hfinish := hcd.finish hst.position
  refine mirrors_ite (by rw [hst.kind_eq]) (fun _ _ => ?_) fun _ _ =>
    mirrors_ite (by rw [hst.kind_eq, hst.isEof_eq]) (fun _ _ => ?_) fun _ _ =>
    mirrors_ite (by rw [hst.kind_eq]) (fun _ _ => ?_) fun _ _ =>
    mirrors_ite (by rw [hst.kind_eq]) (fun _ _ => ?_) fun _ _ => ?_
  · exact mirrors_advance.seq (mirrors_pure (.done (hfinish.pair hst.current.span.some)))
  · exact (mirrors_reportAt hopening _ _).seq (mirrors_pure (.done (hfinish.pair alike_none)))
  · -- A backslash: the sign after it is kept, without the backslash or with it.
    refine mirrors_advance.seq ?_
    refine mirrors_current.bind fun x y hxy => ?_
    refine mirrors_ite (by rw [hxy.kind]) (fun _ _ => ?_) fun _ _ => ?_
    · exact mirrors_advance.seq (mirrors_pure (.again ((hcd.flush hst.position).extend hxy.start hxy.chars)))
    · refine mirrors_advance.seq (mirrors_pure (.again (hcd.extend hst.position ?_)))
      rw [k.left.text_append, k.right.text_append, hst.current.chars, hxy.chars]
  · exact (starOrSplice_mirrors hg hcd).bind fun _ _ h => mirrors_pure (.again h)
  · exact mirrors_advance.seq (mirrors_pure (.again (hcd.extend hst.position hst.current.chars)))

theorem quoted_twins (hg : g.Twins k g') (quote : TokenKind) :
    Twins k (quoted g quote) (quoted g' quote) := by
  unfold quoted
  refine mirrors_token.bind fun t u htu => ?_
  exact mirrors_repeated (fun c d => quotedRound_mirrors hg quote htu.span) Content.Matches.empty

/-! ### Lines -/

theorem blankWidth_eq (indentSize width : Nat) {ts us : List Token}
    (h : List.Forall₂ (Token.Matches k) ts us) :
    blankWidth indentSize width ts = blankWidth indentSize width us := by
  induction h generalizing width with
  | nil => rfl
  | cons htu _ ih => simp only [blankWidth, htu.kind, ih]

theorem indentation_twins : Twins k indentation indentation := by
  unfold indentation
  refine mirrors_state.bind fun s t hst => ?_
  refine mirrors_skipBlanks.seq ?_
  refine (twins_spanFrom hst.position).bind fun _ _ hspan => mirrors_pure ?_
  rw [hst.indentSize, hst.blocks, blankWidth_eq _ _ hst.rest]
  exact congrArg (Indent.mk · _ _) hspan

theorem lineEnds_mirrors : Mirrors k Eq lineEnds lineEnds := by
  unfold lineEnds
  refine (mirrors_trivia _).seq ?_
  refine (mirrors_eats _).bind fun x y hxy => ?_
  exact mirrors_ite (by rw [hxy]) (fun _ _ => mirrors_pure rfl) fun _ _ => mirrors_isEof

theorem lineEnd_mirrors : Mirrors k Eq lineEnd lineEnd :=
  lineEnds_mirrors.bind fun _ _ h => mirrors_require h

theorem finishLine_mirrors : Mirrors k Eq finishLine finishLine := by
  unfold finishLine
  refine lineEnds_mirrors.bind fun x y hxy => ?_
  refine mirrors_ite (by rw [hxy]) (fun _ _ => ?_) fun _ _ => mirrors_pure rfl
  refine mirrors_state.bind fun s t hst => ?_
  refine mirrors_skipLine.seq ?_
  refine (twins_spanFrom hst.position).bind fun _ _ hspan => ?_
  rw [hst.lineText_eq]
  refine (mirrors_reportAt hspan _ _).seq ?_
  refine (mirrors_eats _).seq ?_
  exact mirrors_pure rfl

theorem objectKey_twins (hg : g.Twins k g') : Twins k (objectKey g) (objectKey g') := by
  unfold objectKey
  refine mirrors_current.bind fun t u htu => mirrors_ite (by rw [htu.kind]) (fun hkind _ => ?_) fun _ _ => ?_
  · -- A key that is a word is the same word on both sides.
    rw [htu.word_eq hkind]
    refine (mirrors_require rfl).seq ?_
    refine mirrors_advance.seq ?_
    exact mirrors_pure (congrArg₂ ObjectKey.word htu.span (htu.word_alike hkind))
  · refine (mirrors_require (by rw [htu.kind])).seq ((quoted_twins hg _).bind ?_)
    rintro ⟨parts, _⟩ ⟨parts', _⟩ hquoted
    obtain ⟨hparts, -⟩ := alike_pair_iff.mp hquoted
    refine (twins_spanFrom htu.start).bind fun _ _ hspan => mirrors_pure ?_
    simp_all [Alike, Through.through, ObjectKey.through]

theorem prototype_twins (hg : g.Twins k g') : Twins k (prototype g) (prototype g') := by
  unfold prototype
  refine twins_position.bind fun _ _ hstart => ?_
  refine (mirrors_eats _).bind fun x y hxy => ?_
  refine mirrors_ite (by rw [hxy]) (fun _ _ => ?_) fun _ _ => mirrors_pure rfl
  refine mirrors_blanks.seq ?_
  refine (hg.expression false false).bind fun _ _ hvalue => ?_
  refine (twins_spanFrom hstart).bind fun _ _ hspan => ?_
  refine mirrors_blanks.seq ?_
  exact mirrors_pure (congrArg₂ Prototype.inherits hspan hvalue)

theorem tagValue_twins (hg : g.Twins k g') : Twins k (tagValue g) (tagValue g') := by
  unfold tagValue
  refine (mirrors_eats _).bind fun x y hxy => ?_
  refine mirrors_ite (by rw [hxy]) (fun _ _ => ?_) fun _ _ => mirrors_pure alike_none
  refine mirrors_blanks.seq ?_
  refine (hg.expression false true).bind fun _ _ hvalue => ?_
  refine mirrors_blanks.seq ?_
  exact mirrors_pure hvalue.some

/-- Tags that look the same and have the same name. -/
def TagsMatch (k : Likeness) : Tag → Tag → Prop
  | .tag span name value, .tag span' name' value' =>
    name = name' ∧ Alike k (Tag.tag span name value) (.tag span' name' value')

theorem tag_mirrors (hg : g.Twins k g') : Mirrors k (TagsMatch k) (tag g) (tag g') := by
  unfold tag
  refine (mirrors_eat _).bind fun o o' hopening => ?_
  refine mirrors_blanks.seq ?_
  refine mirrors_eatName.bind fun t u ⟨_, htext, hname⟩ => ?_
  rw [htext]
  refine (mirrors_require rfl).seq ?_
  refine mirrors_blanks.seq ?_
  refine (tagValue_twins hg).bind fun _ _ hvalue => ?_
  refine (mirrors_eat _).seq ?_
  refine (twins_spanFrom hopening.start).bind fun _ _ hspan => ?_
  refine mirrors_pure ⟨rfl, ?_⟩
  simp_all [Alike, Through.through, Tag.through]

theorem tags_mirrors (hg : g.Twins k g') : Mirrors k (List.Forall₂ (TagsMatch k)) (tags g) (tags g') := by
  refine mirrors_repeated (I := List.Forall₂ (TagsMatch k)) (fun ts us htags => ?_) .nil
  unfold tagRound
  refine mirrors_state.bind fun s t hst => mirrors_ite (by rw [hst.kind_eq]) (fun _ _ => ?_) fun _ _ => ?_
  · refine (tag_mirrors hg).bind fun _ _ htag => ?_
    refine mirrors_blanks.seq ?_
    exact mirrors_pure (.again (.cons htag htags))
  · exact mirrors_pure (.done (List.rel_reverse htags))

theorem alike_of_tagsMatch {ts us : List Tag} (h : List.Forall₂ (TagsMatch k) ts us) : Alike k ts us := by
  induction h with
  | nil => exact alike_nil
  | @cons t u _ _ htag _ ih =>
    obtain ⟨_, _, _⟩ := t
    obtain ⟨_, _, _⟩ := u
    exact Alike.cons htag.2 ih

theorem reportDuplicates_mirrors (seen : List String) {ts us : List Tag} (h : List.Forall₂ (TagsMatch k) ts us) :
    Mirrors k Eq (reportDuplicates seen ts) (reportDuplicates seen us) := by
  induction h generalizing seen with
  | nil => exact mirrors_pure rfl
  | @cons t u _ _ htag _ ih =>
    obtain ⟨span, name, value⟩ := t
    obtain ⟨span', name', value'⟩ := u
    obtain ⟨rfl, hlook⟩ := htag
    -- Which names were seen before depends on the names only, and those are equal.
    have hspan : Alike k span span' := by
      simp only [Alike, Through.through, Tag.through, Tag.tag.injEq] at hlook
      exact hlook.1
    rw [reportDuplicates, reportDuplicates]
    refine mirrors_ite .rfl (fun _ _ => ?_) fun _ _ => ih _
    exact (mirrors_reportAt hspan _ _).seq (ih _)

theorem initializer_twins (hg : g.Twins k g') : Twins k (initializer g) (initializer g') := by
  unfold initializer
  refine mirrors_state.bind fun s t hst => ?_
  refine mirrors_ite (by rw [hst.kind_eq, hst.peek_kind_eq]) (fun _ _ => ?_) fun _ _ => mirrors_pure alike_none
  refine mirrors_advance.seq ?_
  refine mirrors_blanks.seq ?_
  refine (hg.expression false true).bind fun _ _ hvalue => ?_
  exact mirrors_pure hvalue.some

theorem codeBlock_twins (hg : g.Twins k g') (isScoped : Bool) :
    Twins k (codeBlock g isScoped) (codeBlock g' isScoped) := by
  have hlist : Twins k (bracketed statementList fun _ => g.statement true)
      (bracketed statementList fun _ => g'.statement true) :=
    bracketed_twins fun _ _ _ => hg.statement true
  unfold codeBlock
  refine twins_position.bind fun _ _ hstart => ?_
  refine mirrors_ite .rfl (fun _ _ => hlist.inScope.bind ?_) fun _ _ => hlist.bind ?_
  all_goals
    rintro ⟨brackets, statements⟩ ⟨brackets', statements'⟩ hlists
    obtain ⟨hbrackets, hstatements⟩ := alike_pair_iff.mp hlists
    refine (twins_spanFrom hstart).bind fun _ _ hspan => mirrors_pure ?_
    simp_all [Alike, Through.through, Block.through]

theorem codeBlockLine_twins (hg : g.Twins k g') : Twins k (codeBlockLine g) (codeBlockLine g') := by
  unfold codeBlockLine
  refine twins_position.bind fun _ _ hstart => ?_
  refine indentation_twins.bind fun _ _ hindent => ?_
  refine (mirrors_eat _).seq ?_
  refine (codeBlock_twins hg false).bind fun _ _ hblock => ?_
  refine (twins_spanFrom hstart).bind fun _ _ hspan => ?_
  refine finishLine_mirrors.seq ?_
  refine mirrors_pure ?_
  simp_all [Alike, Through.through, Line.through, Statement.through]

theorem deleteLine_twins (hg : g.Twins k g') : Twins k (deleteLine g) (deleteLine g') := by
  unfold deleteLine
  refine twins_position.bind fun _ _ hstart => ?_
  refine indentation_twins.bind fun _ _ hindent => ?_
  refine (mirrors_eatWord (by decide)).bind fun _ _ hword => ?_
  refine mirrors_someBlanks.seq ?_
  refine (objectKey_twins hg).bind fun _ _ hkey => ?_
  refine (twins_spanFrom hword.start).bind fun _ _ hbody => ?_
  refine (twins_spanFrom hstart).bind fun _ _ hspan => ?_
  refine lineEnd_mirrors.seq ?_
  refine mirrors_pure ?_
  simp_all [Alike, Through.through, Line.through]

theorem objectLine_twins (hg : g.Twins k g') : Twins k (objectLine g) (objectLine g') := by
  unfold objectLine
  refine twins_position.bind fun _ _ hstart => ?_
  refine indentation_twins.bind fun _ _ hindent => ?_
  refine twins_position.bind fun _ _ hbodyStart => ?_
  refine (objectKey_twins hg).bind fun _ _ hkey => ?_
  refine mirrors_blanks.seq ?_
  refine (prototype_twins hg).bind fun _ _ hproto => ?_
  refine (tags_mirrors hg).bind fun _ _ hmatch => ?_
  refine (reportDuplicates_mirrors _ hmatch).seq ?_
  refine (initializer_twins hg).bind fun _ _ hvalue => ?_
  refine (twins_spanFrom hbodyStart).bind fun _ _ hbody => ?_
  refine (twins_spanFrom hstart).bind fun _ _ hspan => ?_
  refine lineEnd_mirrors.seq ?_
  refine mirrors_pure ?_
  have htags := alike_of_tagsMatch hmatch
  simp_all [Alike, Through.through, Line.through]

theorem expectStatement_twins (hg : g.Twins k g') : Twins k (expectStatement g) (expectStatement g') := by
  unfold expectStatement
  refine (hg.statement false).found.bind fun x y hxy => ?_
  cases hxy with
  | some hxy => exact mirrors_pure hxy
  | none =>
    refine (mirrors_report _ _).seq ?_
    refine twins_here.bind fun _ _ hhere => ?_
    refine mirrors_skipLine.seq ?_
    exact mirrors_pure (congrArg Statement.missing hhere)

theorem statementLine_twins (hg : g.Twins k g') : Twins k (statementLine g) (statementLine g') := by
  unfold statementLine
  refine twins_position.bind fun _ _ hstart => ?_
  refine indentation_twins.bind fun _ _ hindent => ?_
  refine (mirrors_eat _).seq ?_
  refine mirrors_someBlanks.seq ?_
  refine (mirrors_requireState fun s t hst => by rw [hst.isLineEnd_eq, hst.atLineComment_eq]).seq ?_
  refine (expectStatement_twins hg).bind fun _ _ hbody => ?_
  refine (twins_spanFrom hstart).bind fun _ _ hspan => ?_
  refine finishLine_mirrors.seq ?_
  refine mirrors_pure ?_
  simp_all [Alike, Through.through, Line.through]

theorem commentLine_twins : Twins k commentLine commentLine := by
  have htext : Mirrors k (fun x y => k.left.text x = k.right.text y) (look State.lineText)
      (look State.lineText) := mirrors_look fun _ _ hst => hst.lineText_chars
  unfold commentLine
  refine twins_position.bind fun _ _ hstart => ?_
  refine indentation_twins.bind fun _ _ hindent => ?_
  refine (mirrors_requireState fun _ _ hst => hst.atLineComment_eq).seq ?_
  refine (mirrors_advanceBy _).seq ?_
  refine htext.bind fun x y hxy => ?_
  refine mirrors_skipLine.seq ?_
  refine (twins_spanFrom hstart).bind fun _ _ hspan => ?_
  refine (mirrors_eats _).seq ?_
  refine mirrors_pure ?_
  simp_all [Alike, Through.through, Line.through]

theorem textLine_twins (hg : g.Twins k g') : Twins k (textLine g) (textLine g') := by
  unfold textLine
  refine twins_position.bind fun _ _ hstart => ?_
  refine indentation_twins.bind fun _ _ hindent => ?_
  refine (mirrors_requireState fun _ _ hst => by rw [hst.isLineEnd_eq]).seq ?_
  refine (textContent_twins hg).bind fun _ _ hparts => ?_
  refine (twins_spanFrom hstart).bind fun _ _ hspan => ?_
  refine (mirrors_eats _).seq ?_
  refine mirrors_pure ?_
  simp_all [Alike, Through.through, Line.through]

theorem line_twins (hg : g.Twins k g') : Twins k (line g) (line g') :=
  Mirrors.rewind <| (codeBlockLine_twins hg).orElse <| (deleteLine_twins hg).orElse <|
    (objectLine_twins hg).orElse <| (statementLine_twins hg).orElse <| commentLine_twins.orElse <|
    textLine_twins hg

theorem templateEnd_twins : Twins k templateEnd templateEnd := by
  refine mirrors_blanks.seq ?_
  refine (mirrors_eat _).seq ?_
  refine mirrors_blanks.seq ?_
  refine (mirrors_eat _).bind fun _ _ hclosing => ?_
  exact mirrors_pure hclosing.span

theorem templateBlock_twins (hg : g.Twins k g') : Twins k (templateBlock g) (templateBlock g') := by
  unfold templateBlock
  refine (mirrors_eat _).bind fun o o' hopening => ?_
  refine (mirrors_trivia _).seq ?_
  refine (mirrors_eats _).seq ?_
  -- The lines that have been read look alike; that is what the loop carries on.
  have hround (ls ls' : List Line) (hlines : Alike k ls ls') :
      Mirrors k (Round.Rel (Alike k) (Alike k)) (templateRound g o.span ls) (templateRound g' o'.span ls') := by
    unfold templateRound
    refine mirrors_isEof.bind fun x y hxy => mirrors_ite (by rw [hxy]) (fun _ _ => ?_) fun _ _ => ?_
    · exact (mirrors_reportAt hopening.span _ _).seq (mirrors_pure (.done (hlines.reverse.pair alike_none)))
    · refine templateEnd_twins.attempt.bind fun x y hxy => ?_
      cases hxy with
      | some hclosing => exact mirrors_pure (.done (hlines.reverse.pair hclosing.some))
      | none =>
        refine (line_twins hg).withProgress.bind fun x y hxy => ?_
        cases hxy with
        | some hline => exact mirrors_pure (.again (hline.cons hlines))
        | none => exact mirrors_pure (.again hlines)
  refine (mirrors_repeated hround alike_nil).inBlock.inScope.bind ?_
  rintro ⟨lines, closing⟩ ⟨lines', closing'⟩ hlists
  obtain ⟨hlines, hclosing⟩ := alike_pair_iff.mp hlists
  have hbrackets := alike_brackets hopening.span hclosing
  refine (twins_spanFrom hopening.start).bind fun _ _ hspan => mirrors_pure ?_
  simp_all [Alike, Through.through, Block.through]

theorem block_twins (hg : g.Twins k g') (multiline : Bool) :
    Twins k (block g multiline) (block g' multiline) := by
  unfold block
  refine Mirrors.rewind ?_
  refine (mirrors_trivia _).seq ?_
  refine mirrors_state.bind fun s t hst => ?_
  refine (mirrors_require (by rw [hst.kind_eq])).seq ?_
  exact mirrors_ite (by rw [hst.advance.restIsTrivia_eq]) (fun _ _ => templateBlock_twins hg)
    fun _ _ => codeBlock_twins hg true

end Grammar

end Story
