import Mathlib.Data.Option.Basic
import Story.Proofs.Matching

/-!
# Readers that mirror each other

Two readers mirror each other if they do the same on states that read alike: both fail or both give
values that are related, and the states after them read alike again. There is one rule for each
combinator, so a production mirrors itself if the readers further in do.

* `Parser.Together M R p q` — readers side by side: `M` relates the states, `R` the values;
* `Parser.Mirrors k R p q` — readers side by side on states that read alike;
* `Parser.Twins k p q` — the values look the same;
* `Parser.mirrors_repeated` — loops, by an invariant of what they carry from round to round.
-/

namespace Story

variable {k : Likeness}

/-- Rounds of two loops that go on together and end together. -/
inductive Parser.Round.Rel {σ τ α β : Type} (I : σ → τ → Prop) (R : α → β → Prop) :
    Round σ α → Round τ β → Prop where
  | again {x : σ} {y : τ} (h : I x y) : Rel I R (.again x) (.again y)
  | done {a : α} {b : β} (h : R a b) : Rel I R (.done a) (.done b)

/-- Optional values look the same if both are there and look the same. -/
theorem alike_of_optionRel {α : Type} [Through α] {x y : Option α} (h : Option.Rel (Alike k) x y) :
    Alike k x y := by
  cases h with
  | none => exact alike_none
  | some h => exact h.some

namespace Parser

/-! ### Readers side by side -/

section Together

variable {α α' β β' σ σ' : Type} {M : State → State → Prop} {R : α → α' → Prop} {S : β → β' → Prop}
  {p : Parser α} {q : Parser α'}

/-- Both readers fail in these states, or both give related values; and the states after them are related. -/
def TogetherAt (M : State → State → Prop) (R : α → α' → Prop) (p : Parser α) (q : Parser α')
    (s t : State) : Prop :=
  Option.Rel R (p s).1 (q t).1 ∧ M (p s).2 (q t).2

/-- In related states both readers fail, or both give related values; and the states stay related. -/
def Together (M : State → State → Prop) (R : α → α' → Prop) (p : Parser α) (q : Parser α') : Prop :=
  ∀ ⦃s t : State⦄, M s t → TogetherAt M R p q s t

theorem Together.bind {f : α → Parser β} {f' : α' → Parser β'} (hp : Together M R p q)
    (hf : ∀ x y, R x y → Together M S (f x) (f' y)) : Together M S (p >>= f) (q >>= f') := by
  intro s t hst
  obtain ⟨hvalue, hstate⟩ := hp hst
  change Option.Rel S (bindRun p f s).1 (bindRun q f' t).1 ∧ M (bindRun p f s).2 (bindRun q f' t).2
  unfold bindRun
  -- One of them failing alone is ruled out by how their values are related.
  rcases hps : p s with ⟨_ | x, s'⟩ <;> rcases hqt : q t with ⟨_ | y, t'⟩ <;>
    rw [hps, hqt] at hvalue hstate
  · exact ⟨.none, hstate⟩
  · cases hvalue
  · cases hvalue
  · cases hvalue with
    | some h => exact hf x y h hstate

/-- Loops stay together if their rounds do, as long as what they carry is related. Related states have as
many tokens left. -/
theorem Together.repeated (hM : ∀ s t, M s t → s.rest.length = t.rest.length) {I : σ → σ' → Prop}
    {body : σ → Parser (Round σ α)} {body' : σ' → Parser (Round σ' α')}
    (h : ∀ x y, I x y → Together M (Round.Rel I R) (body x) (body' y)) {x : σ} {y : σ'} (hxy : I x y) :
    Together M R (repeated body x) (repeated body' y) := by
  intro s t hst
  change Option.Rel R (loop body x s).1 (loop body' y t).1 ∧ M (loop body x s).2 (loop body' y t).2
  -- By induction on the tokens that are left for the first loop; the second has as many.
  induction hn : s.rest.length using Nat.strongRecOn generalizing s t x y with
  | ind n ih =>
    subst hn
    obtain ⟨hvalue, hstate⟩ := h x y hxy hst
    rw [loop, loop]
    rcases hround : body x s with ⟨_ | r, s'⟩ <;> rcases hround' : body' y t with ⟨_ | r', t'⟩ <;>
      rw [hround, hround'] at hvalue hstate
    · exact ⟨.none, hstate⟩
    · cases hvalue
    · cases hvalue
    · obtain ⟨hrel⟩ := hvalue
      cases hrel with
      | done hab => exact ⟨.some hab, hstate⟩
      | again hnext =>
        -- Both loops end here if a round has read nothing, and both or neither has.
        dsimp only
        rw [← hM _ _ hstate, ← hM _ _ hst]
        split
        · next hguard => exact ih _ hguard hnext hstate rfl
        · exact ⟨.none, hstate⟩

end Together

variable {α β σ : Type} {R R' : α → α → Prop} {S : β → β → Prop} {p p' q q' : Parser α}

/-- Both readers do the same in these states, and then they read alike. -/
abbrev MirrorsAt (k : Likeness) (R : α → α → Prop) (p q : Parser α) (s t : State) : Prop :=
  TogetherAt (State.Matches k) R p q s t

/-- **Both readers do the same on states that read alike.** -/
abbrev Mirrors (k : Likeness) (R : α → α → Prop) (p q : Parser α) : Prop :=
  Together (State.Matches k) R p q

/-- Both readers give values that look the same. -/
abbrev Twins (k : Likeness) [Through α] (p q : Parser α) : Prop := Mirrors k (Alike k) p q

theorem Mirrors.mono (h : Mirrors k R p q) (hR : ∀ x y, R x y → R' x y) : Mirrors k R' p q := by
  intro s t hst
  obtain ⟨hvalue, hstate⟩ := h hst
  refine ⟨?_, hstate⟩
  generalize (p s).1 = x at hvalue
  generalize (q t).1 = y at hvalue
  cases hvalue with
  | none => exact .none
  | some h => exact .some (hR _ _ h)

theorem mirrors_pure {a b : α} (h : R a b) : Mirrors k R (pure a) (pure b) := fun _ _ hst => ⟨.some h, hst⟩

theorem mirrors_fail : Mirrors k R fail fail := fun _ _ hst => ⟨.none, hst⟩

theorem Mirrors.bind {f f' : α → Parser β} (hp : Mirrors k R p q)
    (hf : ∀ x y, R x y → Mirrors k S (f x) (f' y)) : Mirrors k S (p >>= f) (q >>= f') :=
  Together.bind hp hf

/-- What follows does not ask what was read. -/
theorem Mirrors.seq {r r' : Parser β} (hp : Mirrors k R p q) (hr : Mirrors k S r r') :
    Mirrors k S (p >>= fun _ => r) (q >>= fun _ => r') := hp.bind fun _ _ _ => hr

theorem mirrors_look {f f' : State → α} (h : ∀ s t, s.Matches k t → R (f s) (f' t)) :
    Mirrors k R (look f) (look f') := fun s t hst => ⟨.some (h s t hst), hst⟩

theorem mirrors_state : Mirrors k (State.Matches k) state state := mirrors_look fun _ _ h => h

/-- What follows depends on the state, which is still the same. -/
theorem mirrors_state_bind {f f' : State → Parser β}
    (h : ∀ s t, s.Matches k t → MirrorsAt k S (f s) (f' t) s t) :
    Mirrors k S (state >>= f) (state >>= f') := fun s t hst => h s t hst

theorem mirrorsAt_state_bind {f f' : State → Parser β} {s t : State}
    (h : MirrorsAt k S (f s) (f' t) s t) : MirrorsAt k S (state >>= f) (state >>= f') s t := h

theorem mirrorsAt_look_bind {γ : Type} {l l' : State → γ} {f f' : γ → Parser β} {s t : State}
    (h : MirrorsAt k S (f (l s)) (f' (l' t)) s t) : MirrorsAt k S (look l >>= f) (look l' >>= f') s t := h

theorem mirrors_change {f f' : Step} (h : ∀ s t, s.Matches k t → (f.apply s).Matches k (f'.apply t)) :
    Mirrors k Eq (change f) (change f') := fun s t hst => ⟨.some rfl, h s t hst⟩

theorem mirrors_ite {c c' : Prop} [Decidable c] [Decidable c'] (hc : c ↔ c')
    (hp : c → c' → Mirrors k R p q) (hp' : ¬c → ¬c' → Mirrors k R p' q') :
    Mirrors k R (if c then p else p') (if c' then q else q') := by
  by_cases h : c
  · rw [if_pos h, if_pos (hc.mp h)]
    exact hp h (hc.mp h)
  · rw [if_neg h, if_neg (mt hc.mpr h)]
    exact hp' h (mt hc.mpr h)

theorem mirrorsAt_ite {c c' : Prop} [Decidable c] [Decidable c'] {s t : State} (hc : c ↔ c')
    (hp : c → MirrorsAt k R p q s t) (hp' : ¬c → MirrorsAt k R p' q' s t) :
    MirrorsAt k R (if c then p else p') (if c' then q else q') s t := by
  by_cases h : c
  · rw [if_pos h, if_pos (hc.mp h)]
    exact hp h
  · rw [if_neg h, if_neg (mt hc.mpr h)]
    exact hp' h

theorem mirrors_require {c c' : Bool} (h : c = c') : Mirrors k Eq (require c) (require c') := by
  subst h
  cases c
  · exact mirrors_fail
  · exact mirrors_pure rfl

theorem mirrors_requireState {c c' : State → Bool} (h : ∀ s t, s.Matches k t → c s = c' t) :
    Mirrors k Eq (requireState c) (requireState c') :=
  mirrors_state.bind fun s t hst => mirrors_require (h s t hst)

/-! ### Trying -/

theorem Mirrors.isSome_eq (h : Mirrors k R p q) {s t : State} (hst : s.Matches k t) :
    (p s).1.isSome = (q t).1.isSome := by
  have hvalue := (h hst).1
  generalize (p s).1 = x at hvalue
  generalize (q t).1 = y at hvalue
  cases hvalue <;> rfl

theorem Mirrors.rewind (h : Mirrors k R p q) : Mirrors k R (rewind p) (rewind q) := by
  intro s t hst
  change Option.Rel R (rewindRun p s).1 (rewindRun q t).1 ∧ (rewindRun p s).2.Matches k (rewindRun q t).2
  rw [rewindRun_eq, rewindRun_eq, h.isSome_eq hst]
  split
  · exact h hst
  · exact ⟨.none, hst⟩

theorem Mirrors.found (h : Mirrors k R p q) : Mirrors k (Option.Rel R) (found p) (found q) :=
  fun _ _ hst => ⟨.some (h hst).1, (h hst).2⟩

theorem Mirrors.attempt (h : Mirrors k R p q) : Mirrors k (Option.Rel R) (attempt p) (attempt q) :=
  h.rewind.found

/-- After a failed attempt both readers are where they were. -/
theorem mirrorsAt_attempt_bind {f f' : Option α → Parser β} (h : Mirrors k R p q) {s t : State}
    (hst : s.Matches k t) (hnone : MirrorsAt k S (f none) (f' none) s t)
    (hsome : ∀ x y, R x y → Mirrors k S (f (some x)) (f' (some y))) :
    MirrorsAt k S (attempt p >>= f) (attempt q >>= f') s t := by
  obtain ⟨hvalue, hstate⟩ := h.rewind hst
  change MirrorsAt k S (f (rewindRun p s).1) (f' (rewindRun q t).1) (rewindRun p s).2 (rewindRun q t).2
  change Option.Rel R (rewindRun p s).1 (rewindRun q t).1 at hvalue
  change (rewindRun p s).2.Matches k (rewindRun q t).2 at hstate
  -- The general rule for sequences forgets where a failed attempt ends: at its start.
  have hback {p : Parser α} {s : State} (hp : (rewindRun p s).1 = none) : (rewindRun p s).2 = s := by
    rw [rewindRun_eq] at hp ⊢
    split at hp
    · next hsome => rw [hp] at hsome; cases hsome
    · next hfail => rw [if_neg hfail]
  generalize hx : (rewindRun p s).1 = x at hvalue
  generalize hy : (rewindRun q t).1 = y at hvalue
  cases hvalue with
  | none =>
    rw [hback hx, hback hy]
    exact hnone
  | some hxy => exact hsome _ _ hxy hstate

theorem Mirrors.orElse (h : Mirrors k R p q) (h' : Mirrors k R p' q') :
    Mirrors k R (p <|> p') (q <|> q') := by
  refine h.attempt.bind fun x y hxy => ?_
  cases hxy with
  | none => exact h'
  | some hxy => exact mirrors_pure hxy

theorem Mirrors.succeeds (h : Mirrors k R p q) : Mirrors k Eq (succeeds p) (succeeds q) := by
  intro s t hst
  change Option.Rel Eq (some (p s).1.isSome) (some (q t).1.isSome) ∧
    ((p s).2.restore s.checkpoint).Matches k ((q t).2.restore t.checkpoint)
  rw [State.restore_checkpoint (p.extended s), State.restore_checkpoint (q.extended t), h.isSome_eq hst]
  exact ⟨.some rfl, hst⟩

/-- Whether something was there. -/
theorem isSome_eq_of_rel {x y : Option α} (h : Option.Rel R x y) : x.isSome = y.isSome := by
  cases h <;> rfl

/-! ### Surroundings -/

theorem Mirrors.inScope (h : Mirrors k R p q) : Mirrors k R (inScope p) (inScope q) := by
  intro s t hst
  obtain ⟨hvalue, hstate⟩ := h hst
  change Option.Rel R (p s).1 (q t).1 ∧
    ((p s).2.forgetLocals s.locals.length).Matches k ((q t).2.forgetLocals t.locals.length)
  rw [State.forgetLocals_of_extends (p.extended s), State.forgetLocals_of_extends (q.extended t)]
  exact ⟨hvalue, { hstate with locals := hst.locals }⟩

theorem Mirrors.inBlock (h : Mirrors k R p q) : Mirrors k R (inBlock p) (inBlock q) := by
  intro s t hst
  have hinner : State.Matches k { s with blocks := s.blocks + 1 } { t with blocks := t.blocks + 1 } :=
    { hst with blocks := congrArg (· + 1) hst.blocks }
  obtain ⟨hvalue, hstate⟩ := h hinner
  exact ⟨hvalue, { hstate with blocks := congrArg (· - 1) hstate.blocks }⟩

theorem Mirrors.deeper (h : Mirrors k R p q) : Mirrors k R (deeper p) (deeper q) := by
  intro s t hst
  have hinner : State.Matches k { s with depth := s.depth + 1 } { t with depth := t.depth + 1 } :=
    { hst with depth := congrArg (· + 1) hst.depth }
  obtain ⟨hvalue, hstate⟩ := h hinner
  exact ⟨hvalue, { hstate with depth := congrArg (· - 1) hstate.depth }⟩

/-! ### Repetition -/

/-- Loops mirror each other if their rounds do, as long as what they carry is related. -/
theorem mirrors_repeated {I : σ → σ → Prop} {body body' : σ → Parser (Round σ α)}
    (h : ∀ x y, I x y → Mirrors k (Round.Rel I R) (body x) (body' y)) {x y : σ} (hxy : I x y) :
    Mirrors k R (repeated body x) (repeated body' y) :=
  Together.repeated (fun _ _ hst => hst.length_eq) h hxy

theorem mirrors_foldlM {σ : Type} {I : σ → σ → Prop} {f f' : α → σ → Parser α}
    (hf : ∀ a b x y, R a b → I x y → Mirrors k R (f a x) (f' b y)) {xs ys : List σ}
    (hxs : List.Forall₂ I xs ys) {a b : α} (hab : R a b) : Mirrors k R (xs.foldlM f a) (ys.foldlM f' b) := by
  induction hxs generalizing a b with
  | nil => exact mirrors_pure hab
  | cons hxy _ ih => exact (hf _ _ _ _ hab hxy).bind fun _ _ hab' => ih hab'

/-! ### Tokens -/

theorem mirrors_advance : Mirrors k Eq (change .advance) (change .advance) :=
  mirrors_change fun _ _ h => h.advance

theorem mirrors_advanceBy (n : Nat) : Mirrors k Eq (change (.advanceBy n)) (change (.advanceBy n)) :=
  mirrors_change fun _ _ h => h.advanceBy n

theorem mirrors_skipLine : Mirrors k Eq (change .skipLine) (change .skipLine) :=
  mirrors_change fun _ _ h => h.skipLine

theorem mirrors_skipBlanks : Mirrors k Eq (change .skipBlanks) (change .skipBlanks) :=
  mirrors_change fun _ _ h => h.skipBlanks

theorem mirrors_current : Mirrors k (Token.Matches k) (look State.current) (look State.current) :=
  mirrors_look fun _ _ h => h.current

theorem mirrors_token : Mirrors k (Token.Matches k) token token :=
  mirrors_current.bind fun _ _ h => mirrors_advance.seq (mirrors_pure h)

/-- What is known of the values of the first reader. -/
theorem Mirrors.knowing (h : Mirrors k R p q) {P : α → Prop} (hp : ∀ s s' x, p s = (some x, s') → P x) :
    Mirrors k (fun x y => R x y ∧ P x) p q := by
  intro s t hst
  obtain ⟨hvalue, hstate⟩ := h hst
  unfold TogetherAt
  -- As for sequences, the mixed cases are ruled out.
  rcases hps : p s with ⟨_ | x, s'⟩ <;> rcases hqt : q t with ⟨_ | y, t'⟩ <;>
    rw [hps, hqt] at hvalue hstate
  · exact ⟨.none, hstate⟩
  · cases hvalue
  · cases hvalue
  · obtain ⟨hxy⟩ := hvalue
    exact ⟨.some ⟨hxy, hp s s' x hps⟩, hstate⟩

theorem mirrors_eat (kind : TokenKind) : Mirrors k (Token.Matches k) (eat kind) (eat kind) :=
  (mirrors_requireState fun _ _ h => by rw [h.kind_eq]).seq mirrors_token

/-- The words that are read are the same, and as names they look the same. -/
theorem mirrors_eatName :
    Mirrors k (fun t u => t.Matches k u ∧ t.text = u.text ∧ Alike k u.text u.text) (eat .word) (eat .word) := by
  have hword := (mirrors_eat (k := k) .word).knowing (P := fun t => t.kind = .word) fun s s' t h => by
    obtain ⟨hkind, rfl, -⟩ := eat_eq_some.mp h
    exact hkind
  exact hword.mono fun t u ⟨h, hkind⟩ => ⟨h, h.word_eq hkind, h.word_alike hkind⟩

/-- A word that is looked for is no end of line. -/
theorem mirrors_eatWord {word : String} (hword : word ≠ "\n" ∧ word ≠ "\r\n") :
    Mirrors k (Token.Matches k) (eatWord word) (eatWord word) :=
  (mirrors_requireState fun _ _ h => h.current.isWord_eq hword).seq mirrors_token

theorem mirrors_eatsIf {condition : Token → Bool}
    (h : ∀ t u : Token, t.Matches k u → condition t = condition u) :
    Mirrors k Eq (eatsIf condition) (eatsIf condition) := by
  refine mirrors_current.bind fun t u htu => ?_
  refine mirrors_ite (by rw [h t u htu]) (fun _ _ => ?_) fun _ _ => mirrors_pure rfl
  exact mirrors_advance.seq (mirrors_pure rfl)

theorem mirrors_eats (kind : TokenKind) : Mirrors k Eq (eats kind) (eats kind) :=
  mirrors_eatsIf fun _ _ h => by rw [h.kind]

/-- Whether a token was there tells what the current token was. -/
theorem mirrorsAt_eats_bind {kind : TokenKind} {f f' : Bool → Parser β} {s t : State} (hst : s.Matches k t)
    (hfound : s.kind = kind → Mirrors k S (f true) (f' true)) (hmissing : Mirrors k S (f false) (f' false)) :
    MirrorsAt k S (eats kind >>= f) (eats kind >>= f') s t := by
  -- What the question does depends on the kind of the current token only.
  have hrun (f : Bool → Parser β) (s : State) :
      (eats kind >>= f) s = if s.kind = kind then f true s.advance else f false s := by
    change bindRun (if (s.kind == kind) = true then (do change .advance; return true) else return false) f s = _
    by_cases h : s.kind = kind
    · rw [if_pos h, if_pos (beq_iff_eq.mpr h)]
      rfl
    · rw [if_neg h, if_neg (mt beq_iff_eq.mp h)]
      rfl
  unfold MirrorsAt TogetherAt
  rw [hrun f s, hrun f' t, ← hst.kind_eq]
  split
  · next h => exact hfound h hst.advance
  · exact hmissing hst

theorem mirrors_eatsWord {word : String} (hword : word ≠ "\n" ∧ word ≠ "\r\n") :
    Mirrors k Eq (eatsWord word) (eatsWord word) :=
  mirrors_eatsIf fun _ _ h => h.isWord_eq hword

theorem mirrors_blanks : Mirrors k Eq blanks blanks := by
  have hblank : Mirrors k Eq (look fun s => s.kind.isBlank) (look fun s => s.kind.isBlank) :=
    mirrors_look fun _ _ h => by rw [h.kind_eq]
  exact hblank.bind fun _ _ h => mirrors_skipBlanks.seq (mirrors_pure h)

theorem mirrors_someBlanks : Mirrors k Eq someBlanks someBlanks :=
  mirrors_blanks.bind fun _ _ h => mirrors_require h

theorem mirrors_trivia (multiline : Bool) : Mirrors k Eq (trivia multiline) (trivia multiline) :=
  mirrors_change fun _ _ h => h.skipTrivia multiline

/-- After trivia there is no end of line that would be trivia too. -/
theorem mirrors_trivia_bind {multiline : Bool} {f f' : Unit → Parser β}
    (h : ∀ s t, s.Matches k t → (multiline = true → s.kind ≠ .endline) → MirrorsAt k S (f ()) (f' ()) s t) :
    Mirrors k S (trivia multiline >>= f) (trivia multiline >>= f') := by
  intro s t hst
  refine h _ _ (hst.skipTrivia multiline) fun hmultiline => ?_
  rw [hmultiline]
  exact s.kind_skipTrivia_ne

theorem twins_position : Twins k position position := mirrors_look fun _ _ h => h.position

theorem twins_here : Twins k (look State.here) (look State.here) := mirrors_look fun _ _ h => h.here

theorem twins_spanFrom {start start' : Position} (h : Alike k start start') :
    Twins k (spanFrom start) (spanFrom start') :=
  mirrors_look fun _ _ hst => hst.spanFrom h

theorem mirrors_isEof : Mirrors k Eq (look State.isEof) (look State.isEof) :=
  mirrors_look fun _ _ h => h.isEof_eq

/-- As many tokens have been read on both sides. -/
def CursorsMatch (k : Likeness) (m n : Nat) : Prop := m + k.second.cursor = n + k.first.cursor

theorem mirrors_cursor : Mirrors k (CursorsMatch k) (look State.cursor) (look State.cursor) :=
  mirrors_look fun _ _ h => h.cursor

/-- Both readers have read a token since, or neither has. -/
theorem CursorsMatch.beq_iff {m n m' n' : Nat} (h : CursorsMatch k m n) (h' : CursorsMatch k m' n') :
    (m' == m) = true ↔ (n' == n) = true := by
  unfold CursorsMatch at h h'
  rw [beq_iff_eq, beq_iff_eq]
  omega

theorem Mirrors.withProgress (h : Mirrors k R p q) :
    Mirrors k (Option.Rel R) (withProgress p) (withProgress q) := by
  refine mirrors_cursor.bind fun _ _ hbefore => h.found.bind fun x y hxy => ?_
  refine mirrors_cursor.bind fun _ _ hafter => ?_
  refine mirrors_ite (hbefore.beq_iff hafter) (fun _ _ => ?_) fun _ _ => mirrors_pure hxy
  exact mirrors_advance.seq (mirrors_pure hxy)

/-! ### Recording -/

theorem mirrors_reportAt {span span' : Span} (h : Alike k span span') (m : Message)
    (arguments : List String) : Mirrors k Eq (reportAt span m arguments) (reportAt span' m arguments) :=
  mirrors_change fun _ _ hst => hst.reportAt h m arguments

theorem mirrors_report (m : Message) (arguments : List String) :
    Mirrors k Eq (report m arguments) (report m arguments) :=
  mirrors_change fun _ _ hst => hst.report m arguments

theorem mirrors_expected (what : String) : Mirrors k Eq (expected what) (expected what) :=
  mirrors_report _ _

theorem mirrors_expect (kind : TokenKind) : Mirrors k Eq (expect kind) (expect kind) := by
  refine (mirrors_eats kind).bind fun x y hxy => ?_
  refine mirrors_ite (by rw [hxy]) (fun _ _ => mirrors_pure rfl) fun _ _ => ?_
  exact (mirrors_expected _).seq (mirrors_pure rfl)

theorem mirrors_declare {name name' : String} (h : name = name') :
    Mirrors k Eq (declare name) (declare name') := by
  subst h
  exact mirrors_change fun _ _ hst => hst.declare name

theorem mirrors_addImport {i j : Import} (h : Alike k i j) :
    Mirrors k Eq (change (.addImport i)) (change (.addImport j)) :=
  mirrors_change fun _ _ hst => hst.addImport h

end Parser

end Story
