import Story.Proofs.Progress

/-!
# Every loop ends

A loop of the grammar is guarded: a round that goes on without having read a token makes the loop fail
(`Parser.loop`). Here it is shown that the guard never stops anything, so that the loops may be thought of
without it. Every round either ends its loop or reads a token, on whatever text and however the readers
further in behave.

* `Parser.Advances` — what is asked of the rounds of a loop;
* `Parser.Iterates` — repetition without the guard; a loop that advances does just that
  (`Parser.loop_iterates`);
* `Grammar.LoopsAdvance` — the loops inside a production, for any readers further in;
* `Grammar.lines_eq_some` — the loop over the lines of a story comes to the end of the file.

A round that reads an item may leave everything where it was, since beyond the last level of nesting
readers succeed without reading. Then the round itself passes over a token
(`Parser.cursor_lt_of_progress`).
-/

namespace Story

theorem State.rest_ne_nil_of_not_isEof {s : State} (h : ¬s.isEof = true) : s.rest ≠ [] :=
  rest_ne_nil_of_kind fun hk => h (beq_iff_eq.mpr hk)

namespace Parser

variable {σ α β : Type} {s : State}

/-! ### Rounds -/

/-- If a round goes on, it has read at least one token. -/
def AdvancesAt (p : Parser (Round σ α)) (s : State) : Prop :=
  ∀ next s', p s = (some (.again next), s') → s.cursor < s'.cursor

/-- **Every round ends the loop or reads a token.** -/
def Advances (body : σ → Parser (Round σ α)) : Prop := ∀ a s, (body a).AdvancesAt s

theorem Consumes.advancesAt {p : Parser (Round σ α)} (h : p.Consumes s) : p.AdvancesAt s :=
  fun _ _ hp => h _ _ hp

theorem advancesAt_done {result : α} : (pure (.done result) : Parser (Round σ α)).AdvancesAt s := by
  intro next s' h
  cases h

theorem advancesAt_bind {p : Parser β} {f : β → Parser (Round σ α)}
    (h : ∀ b t, p s = (some b, t) → (f b).AdvancesAt t) : (p >>= f).AdvancesAt s := by
  intro next s' hnext
  obtain ⟨b, t, hp, hf⟩ := bind_eq_some.mp hnext
  calc
    s.cursor ≤ t.cursor := (extends_of_eq hp).cursor_le
    _ < s'.cursor := h b t hp next s' hf

theorem advancesAt_look_bind {f : State → β} {k : β → Parser (Round σ α)} :
    (look f >>= k).AdvancesAt s ↔ (k (f s)).AdvancesAt s := Iff.rfl

theorem advancesAt_state_bind {k : State → Parser (Round σ α)} :
    (state >>= k).AdvancesAt s ↔ (k s).AdvancesAt s := Iff.rfl

theorem advancesAt_ite {c : Prop} [Decidable c] {p q : Parser (Round σ α)} (hp : c → p.AdvancesAt s)
    (hq : ¬c → q.AdvancesAt s) : (if c then p else q).AdvancesAt s := by
  split
  · next h => exact hp h
  · next h => exact hq h

/-! ### Repetition without a guard -/

/-- **Repetition as it is meant:** rounds follow each other until one fails or says that it is done. -/
inductive Iterates (body : σ → Parser (Round σ α)) : σ → State → Option α × State → Prop where
  | failed {a : σ} {s s' : State} (h : body a s = (none, s')) : Iterates body a s (none, s')
  | done {a : σ} {s s' : State} {result : α} (h : body a s = (some (.done result), s')) :
      Iterates body a s (some result, s')
  | again {a next : σ} {s s' : State} {outcome : Option α × State}
      (h : body a s = (some (.again next), s')) (hrest : Iterates body next s' outcome) :
      Iterates body a s outcome

/-- Fewer tokens are left where more have been read. -/
theorem length_lt_of_cursor_lt {s' : State} (h : s.Extends s') (hlt : s.cursor < s'.cursor) :
    s'.rest.length < s.rest.length := by
  have hcursor := h.cursor
  omega

/-- **The guard of a loop that advances never stops it.** -/
theorem loop_iterates {body : σ → Parser (Round σ α)} (h : Advances body) (a : σ) (s : State) :
    Iterates body a s (loop body a s) := by
  fun_induction loop body a s with
  | case1 a s s' hround => exact .failed hround
  | case2 a s result s' hround => exact .done hround
  | case3 a s next s' hround _ ih => exact .again hround ih
  | case4 a s next s' hround hguard =>
    -- A round that goes on has read a token, so there was nothing to stop.
    have hlt : s.cursor < s'.cursor := h a s next s' hround
    exact absurd (length_lt_of_cursor_lt (extends_of_eq hround) hlt) hguard

theorem loop_of_again {body : σ → Parser (Round σ α)} {a next : σ} {t : State} (h : Advances body)
    (hround : body a s = (some (.again next), t)) : loop body a s = loop body next t := by
  rw [loop, hround]
  exact if_pos (length_lt_of_cursor_lt (extends_of_eq hround) (h a s next t hround))

theorem loop_of_done {body : σ → Parser (Round σ α)} {a : σ} {r : α} {t : State}
    (hround : body a s = (some (.done r), t)) : loop body a s = (some r, t) := by
  rw [loop, hround]

/-- A loop that advances and has no round that fails comes to an end, in a state that a last round can
leave. -/
theorem loop_succeeds {body : σ → Parser (Round σ α)} {final : State → Prop} (h : Advances body)
    (hround : ∀ a s, ∃ r s', body a s = (some r, s'))
    (hfinal : ∀ a s result s', body a s = (some (.done result), s') → final s') (a : σ) (s : State) :
    ∃ result s', loop body a s = (some result, s') ∧ final s' := by
  fun_induction loop body a s with
  | case1 a s s' hfail =>
    obtain ⟨r, t, hr⟩ := hround a s
    rw [hr] at hfail
    cases hfail
  | case2 a s result s' hdone => exact ⟨result, s', rfl, hfinal a s result s' hdone⟩
  | case3 a s next s' hagain _ ih => exact ih
  | case4 a s next s' hagain hguard =>
    have hlt : s.cursor < s'.cursor := h a s next s' hagain
    exact absurd (length_lt_of_cursor_lt (extends_of_eq hagain) hlt) hguard

/-! ### Reading something, or else one token -/

/-- Where nothing has been read there is still a token, and it can be passed over. -/
theorem cursor_lt_of_progress {t : State} (hs : s.rest ≠ []) (h : s.Extends t) :
    s.cursor < (if t.cursor == s.cursor then t.advance else t).cursor := by
  have hle := h.cursor_le
  split
  · next heq =>
    -- Nothing has been read, so the token that was there still is.
    have hlength : t.rest.length = s.rest.length := by
      have hcursor := h.cursor
      have heq : t.cursor = s.cursor := beq_iff_eq.mp heq
      omega
    have ht : t.rest ≠ [] := by
      intro hnil
      rw [hnil, List.length_nil] at hlength
      exact hs (List.eq_nil_of_length_eq_zero hlength.symm)
    exact Nat.lt_of_le_of_lt hle (State.cursor_advance_lt ht)
  · next hne =>
    have hne : t.cursor ≠ s.cursor := fun heq => hne (beq_iff_eq.mpr heq)
    omega

theorem withProgress_eq {p : Parser α} :
    withProgress p s = (some (p s).1,
      if (p s).2.cursor == s.cursor then (p s).2.advance else (p s).2) := by
  change (if (p s).2.cursor == s.cursor then _ else _ : Parser (Option α)) (p s).2 = _
  split <;> rfl

theorem withProgress_consumes {p : Parser α} (hs : s.rest ≠ []) : (withProgress p).Consumes s := by
  intro r s' hr
  rw [withProgress_eq] at hr
  cases hr
  exact cursor_lt_of_progress hs (p.extended s)

end Parser

namespace Grammar

open Story.Parser

variable {α : Type} {s : State} (g : Nested)

/-! ### Lists -/

theorem listItem_consumes {style : ListStyle} {item : List α → Parser α} {p : ListProgress α}
    (hs : s.rest ≠ []) : (listItem style item p).Consumes s := by
  unfold listItem
  rw [consumes_look_bind]
  intro r s' hr
  obtain ⟨found, t, hfound, hr⟩ := bind_eq_some.mp hr
  obtain ⟨value, rfl, hvalue⟩ | ⟨rfl, -, rfl⟩ := attempt_eq_some.mp hfound
  · -- An item was found; if it is made of nothing, one token is passed over.
    have hprogress := cursor_lt_of_progress hs (extends_of_eq hvalue)
    change (if t.cursor == s.cursor then _ else _ : Parser _) t = _ at hr
    split at hr
    · next heq =>
      cases hr
      rwa [if_pos heq] at hprogress
    · next hne =>
      cases hr
      rwa [if_neg hne] at hprogress
  · -- No item starts here, and the token that is in its place is passed over.
    exact (consumes_token hs).bind _ _ hr

theorem listElement_consumes {style : ListStyle} {item : List α → Parser α} {p : ListProgress α}
    (hs : s.rest ≠ []) : (listElement style item p).Consumes s := by
  have reported {k : Unit → Parser (Round (ListProgress α) (List α × Option Span))} {m : Message}
      {arguments : List String} (h : ∀ t : State, t.rest ≠ [] → (k ()).Consumes t) :
      (report m arguments >>= k).Consumes s := by
    -- A report changes nothing about the tokens that are left.
    refine consumes_bind fun _ t ht => ?_
    cases ht
    exact h _ hs
  unfold listElement
  split
  · exact listItem_consumes hs
  · rw [consumes_state_bind]
    refine consumes_ite (fun _ => ?_) fun _ => ?_
    · refine consumes_ite (fun _ => reported fun t ht => ?_) fun _ => (consumes_advance hs).bind
      exact (consumes_advance ht).bind
    · exact consumes_ite (fun _ => reported fun t ht => listItem_consumes ht) fun _ =>
        listItem_consumes hs

theorem listRound_advances (style : ListStyle) (item : List α → Parser α) :
    Advances (listRound style item) := by
  intro p s
  unfold listRound
  refine advancesAt_bind fun _ t _ => advancesAt_state_bind.mpr ?_
  refine advancesAt_ite (fun _ => advancesAt_bind fun _ _ _ => advancesAt_done) fun _ => ?_
  refine advancesAt_ite (fun _ => advancesAt_bind fun _ _ _ => advancesAt_done) fun hgoesOn => ?_
  -- Neither a bracket nor the end of the file: there is a token to read.
  have ht : t.rest ≠ [] := State.rest_ne_nil_of_not_isEof fun h => hgoesOn (by rw [h]; rfl)
  exact (listElement_consumes ht).advancesAt

/-! ### Texts -/

theorem textRound_advances : Advances (textRound g) := by
  intro c s
  by_cases hend : s.isLineEnd = true
  · -- At its end the text is done.
    unfold textRound
    rw [advancesAt_state_bind, if_pos hend]
    exact advancesAt_done
  · exact (textRound_consumes g (eq_false_of_ne_true hend)).advancesAt

theorem quotedRound_advances (quote : TokenKind) (opening : Span) :
    Advances (quotedRound g quote opening) := by
  intro c s
  unfold quotedRound
  rw [advancesAt_state_bind]
  refine advancesAt_ite (fun _ => advancesAt_bind fun _ _ _ => advancesAt_done) fun _ => ?_
  refine advancesAt_ite (fun _ => advancesAt_bind fun _ _ _ => advancesAt_done) fun hgoesOn => ?_
  have hs : s.rest ≠ [] := State.rest_ne_nil_of_not_isEof fun h => hgoesOn (by rw [h]; rfl)
  refine Consumes.advancesAt (consumes_ite (fun _ => (consumes_advance hs).bind) fun _ => ?_)
  exact consumes_ite (fun _ => (starOrSplice_consumes g hs).bind) fun _ => (consumes_advance hs).bind

/-! ### Lines -/

theorem tagRound_advances : Advances (tagRound g) := by
  intro tags s
  have tag_consumes {t : State} : (tag g).Consumes t := by
    unfold tag
    exact (consumes_eat (by decide)).bind
  unfold tagRound
  rw [advancesAt_state_bind]
  exact advancesAt_ite (fun _ => tag_consumes.bind.advancesAt) fun _ => advancesAt_done

theorem templateRound_advances (opening : Span) : Advances (templateRound g opening) := by
  intro lines s
  unfold templateRound
  rw [advancesAt_look_bind]
  refine advancesAt_ite (fun _ => advancesAt_bind fun _ _ _ => advancesAt_done) fun hgoesOn => ?_
  have hs : s.rest ≠ [] := State.rest_ne_nil_of_not_isEof hgoesOn
  intro next s' hround
  obtain ⟨ending, t, hending, hnext⟩ := bind_eq_some.mp hround
  -- The closing bracket ends the loop; otherwise a line is read, or a token that starts none.
  obtain ⟨closing, rfl, -⟩ | ⟨rfl, -, rfl⟩ := attempt_eq_some.mp hending
  · cases hnext
  · exact (withProgress_consumes hs).bind _ _ hnext

/-- At the end of the file the lines are done. -/
theorem moduleRound_of_isEof {ls : List Line} (h : s.isEof = true) :
    moduleRound ls s = (some (.done ls.reverse), s) := by
  unfold moduleRound
  rw [look_bind_run, if_pos h]
  rfl

/-- Anywhere else there is one more round, after a line or after a token that starts none. -/
theorem moduleRound_of_not_isEof {ls : List Line} (h : ¬s.isEof = true) :
    moduleRound ls s = (some (.again ((line outermost s).1.toList ++ ls)),
      if (line outermost s).2.cursor == s.cursor then (line outermost s).2.advance
      else (line outermost s).2) := by
  unfold moduleRound
  rw [look_bind_run, if_neg h]
  change bindRun (withProgress (line outermost)) _ s = _
  rw [bindRun, withProgress_eq]
  cases (line outermost s).1 <;> rfl

/-- One line or one token is read until no token is left. -/
theorem moduleRound_advances : Advances moduleRound := by
  intro lines s
  unfold moduleRound
  rw [advancesAt_look_bind]
  refine advancesAt_ite (fun _ => advancesAt_done) fun hgoesOn => ?_
  exact (withProgress_consumes (State.rest_ne_nil_of_not_isEof hgoesOn)).bind.advancesAt

/-! ### Declarations -/

theorem eatsAhead_consumes {kind : TokenKind} {multiline : Bool} (hk : kind ≠ .endfile) {t : State}
    (h : eatsAhead kind multiline s = (some true, t)) : s.cursor < t.cursor := by
  have ahead : (do trivia multiline; eat kind).Consumes s := consumes_bind fun _ _ _ => consumes_eat hk
  obtain ⟨r, u, hr, hfound⟩ := bind_eq_some.mp h
  obtain ⟨token, rfl, htoken⟩ | ⟨rfl, -, rfl⟩ := attempt_eq_some.mp hr
  · cases hfound
    exact ahead _ _ htoken
  · cases hfound

/-- After a declared name, only a comma makes the loop go on. -/
theorem declaratorRound_advances (multiline withValues : Bool) :
    Advances (declaratorRound g multiline withValues) := by
  intro declarators s
  have hcomma : TokenKind.comma ≠ .endfile := by decide
  unfold declaratorRound
  refine advancesAt_bind fun _ t _ => advancesAt_look_bind.mpr (advancesAt_bind fun name u _ => ?_)
  cases name with
  | none => exact advancesAt_bind fun _ _ _ => advancesAt_done
  | some name =>
    -- A name with or without a value is followed by a comma, or it is the last one.
    have comma {value : Option Expression} {v : State} : AdvancesAt (do
        let d : Declarator := .bind (← spanFrom t.position) name value
        if ← eatsAhead .comma multiline then return .again (d :: declarators)
        else return .done (d :: declarators).reverse) v := by
      refine advancesAt_bind fun _ v' _ next w hround => ?_
      obtain ⟨found, w', hfound, hnext⟩ := bind_eq_some.mp hround
      cases found with
      | false => cases hnext
      | true =>
        have hlt : v'.cursor < w'.cursor := eatsAhead_consumes hcomma hfound
        cases hnext
        exact hlt
    exact advancesAt_ite (fun _ => advancesAt_bind fun _ _ _ => comma) fun _ =>
      advancesAt_bind fun _ _ _ => comma

/-! ### Expressions -/

theorem newMemberRound_advances : Advances newMemberRound := by
  intro callee s next s' hround
  obtain ⟨member, t, hmember, hnext⟩ := bind_eq_some.mp hround
  obtain ⟨value, rfl, hvalue⟩ | ⟨rfl, -, rfl⟩ := attempt_eq_some.mp hmember
  · cases hnext
    exact (consumes_eat (by decide)).bind _ _ hvalue
  · cases hnext

theorem newRound_advances : Advances newRound := by
  intro starts s
  unfold newRound
  rw [advancesAt_state_bind]
  refine advancesAt_ite (fun hnew => ?_) fun _ => advancesAt_done
  exact (consumes_advance (State.rest_ne_nil_of_isWord hnew)).bind.advancesAt

theorem memberName_consumes {object : Expression} {start : Position} {isOptional : Bool} :
    (memberName object start isOptional).Consumes s := by
  unfold memberName
  exact (consumes_eat (by decide)).bind

theorem attachment_consumes {multiline isOptional : Bool} {start : Position} {object : Expression} :
    (attachment g multiline start object isOptional).Consumes s := by
  unfold attachment
  rw [consumes_look_bind]
  split
  · -- Each form starts with a sign of its own, and that is read.
    next hk =>
    refine consumes_require_bind fun _ => ?_
    exact (consumes_advance (State.rest_ne_nil_of_kind_eq hk nofun)).bind
  · exact consumes_require_bind fun _ => memberName_consumes
  · unfold called arguments
    exact (bracketed_consumes (by simp [parenList])).bind
  · unfold indexed
    exact (consumes_eat (by decide)).bind
  · exact consumes_require_bind fun _ => updateOperator_consumes.bind
  · exact consumes_require_bind fun _ => updateOperator_consumes.bind
  · exact consumes_fail

theorem attached_consumes {multiline : Bool} {start : Position} {object : Expression} :
    (attached g multiline start object).Consumes s := by
  have inner {t : State} : (eatsOptional >>= attachment g multiline start object).Consumes t :=
    consumes_bind fun _ _ _ => attachment_consumes g
  unfold attached
  exact consumes_ite (fun _ => consumes_bind fun _ _ _ => inner) fun _ => inner

/-- An operator that is found is there: it has a sign, and each of its signs is a token. -/
theorem operatorAt?_eq_some {tokens : List Token} {operator : BinaryOperator}
    (h : operatorAt? tokens = some operator) : tokens ≠ [] ∧ 0 < operatorLength operator := by
  have hstarts : startsWithOperator tokens operator = true := by
    unfold operatorAt? at h
    exact List.find?_some h
  refine ⟨?_, by cases operator <;> decide⟩
  rintro rfl
  revert hstarts
  cases operator <;> decide

theorem operated_consumes {multiline : Bool} {start : Position} {left : Expression} :
    (operated g multiline start left).Consumes s := by
  unfold operated
  refine consumes_bind fun _ t _ => ?_
  rw [consumes_state_bind]
  split
  · exact consumes_fail
  · next operator hop =>
    obtain ⟨hrest, hlength⟩ := operatorAt?_eq_some hop
    exact (consumes_advanceBy hrest hlength).bind

theorem conditional_consumes {multiline : Bool} {start : Position} {condition : Expression} :
    (conditional g multiline start condition).Consumes s := by
  unfold conditional
  refine consumes_bind fun _ t _ => consumes_requireState_bind fun h => ?_
  have hk : t.kind = .question := by
    simp only [Bool.and_eq_true, beq_iff_eq] at h
    exact h.1.1
  exact (consumes_advance (State.rest_ne_nil_of_kind_eq hk nofun)).bind

/-- An expression goes on only with something that is read. -/
theorem continuation_advances (multiline binary : Bool) (start : Position) :
    Advances (continuation g multiline binary start) := by
  intro e s next s' hround
  have inner {t : State} : Consumes (if binary then attached g multiline start e <|>
      operated g multiline start e <|> conditional g multiline start e
      else attached g multiline start e) t := by
    refine consumes_ite (fun _ => ?_) fun _ => attached_consumes g
    exact (attached_consumes g).orElse ((operated_consumes g).orElse (conditional_consumes g))
  -- Where nothing of this is found, the loop is done.
  obtain ⟨found, t, hfound, hnext⟩ := bind_eq_some.mp hround
  obtain ⟨value, rfl, hvalue⟩ | ⟨rfl, -, rfl⟩ := attempt_eq_some.mp hfound
  · cases hnext
    exact inner _ _ hvalue
  · cases hnext

/-! ### All loops -/

/-- **The loops of the productions advance,** in terms of the readers `g` further in. -/
structure LoopsAdvance (g : Nested) : Prop where
  lists {α : Type} (style : ListStyle) (item : List α → Parser α) : Advances (listRound style item)
  templates (opening : Span) : Advances (templateRound g opening)
  quoted (quote : TokenKind) (opening : Span) : Advances (quotedRound g quote opening)
  texts : Advances (textRound g)
  declarators (multiline withValues : Bool) : Advances (declaratorRound g multiline withValues)
  tags : Advances (tagRound g)
  members : Advances newMemberRound
  news : Advances newRound
  continuations (multiline binary : Bool) (start : Position) :
    Advances (continuation g multiline binary start)

theorem loopsAdvance : LoopsAdvance g where
  lists := listRound_advances
  templates := templateRound_advances g
  quoted := quotedRound_advances g
  texts := textRound_advances g
  declarators := declaratorRound_advances g
  tags := tagRound_advances g
  members := newMemberRound_advances
  news := newRound_advances
  continuations := continuation_advances g

/-- **All lines of a story are read:** the loop over them comes to the end of the file. -/
theorem lines_eq_some (s : State) : ∃ ls s', lines s = (some ls, s') ∧ s'.isEof = true := by
  -- No round fails, and the round that ends the loop is one at the end of the file.
  refine loop_succeeds moduleRound_advances (fun ls t => ?_) (fun ls t result t' h => ?_) [] s
  · by_cases hend : t.isEof = true
    · exact ⟨_, _, moduleRound_of_isEof hend⟩
    · exact ⟨_, _, moduleRound_of_not_isEof hend⟩
  · by_cases hend : t.isEof = true
    · rw [moduleRound_of_isEof hend] at h
      cases h
      exact hend
    · rw [moduleRound_of_not_isEof hend] at h
      cases h

end Grammar

end Story
