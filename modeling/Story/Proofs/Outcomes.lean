import Story.Grammar.Parser

/-!
# How a parser comes to its outcome

A successful run of a `do` block is made of successful runs of its steps. The lemmas here open each
combinator in that way, so that a fact `p s = (some a, s')` about a production becomes facts about its
parts, and no proof has to unfold a combinator again.

The lemmas about `rewind`, `attempt` and `orElse` are where it matters that coming back is exact: a
part that was tried and given up does not occur in them at all.
-/

namespace Story.Parser

variable {α β σ : Type} {s s' : State}

/-! ### Sequences -/

@[simp] theorem pure_run (a : α) (s : State) : (pure a : Parser α) s = (some a, s) := rfl

@[simp] theorem fail_run (s : State) : (fail : Parser α) s = (none, s) := rfl

@[simp] theorem look_run (f : State → α) (s : State) : look f s = (some (f s), s) := rfl

@[simp] theorem state_run (s : State) : state s = (some s, s) := rfl

@[simp] theorem change_run (f : Step) (s : State) : change f s = (some (), f.apply s) := rfl

/-- A sequence succeeds if both of its parts do. -/
theorem bind_eq_some {p : Parser α} {f : α → Parser β} {b : β} :
    (p >>= f) s = (some b, s') ↔ ∃ a t, p s = (some a, t) ∧ f a t = (some b, s') := by
  change bindRun p f s = _ ↔ _
  unfold bindRun
  constructor
  · intro h
    split at h
    · cases h
    · next a t hp => exact ⟨a, t, hp, h⟩
  · rintro ⟨a, t, hp, hf⟩
    rw [hp]
    exact hf

/-- A look at the state reads nothing. -/
theorem look_bind_run (f : State → α) (k : α → Parser β) (s : State) :
    (look f >>= k) s = k (f s) s := rfl

theorem state_bind_run (k : State → Parser β) (s : State) : (state >>= k) s = k s s := rfl

theorem change_bind_run (f : Step) (k : Unit → Parser β) (s : State) :
    (change f >>= k) s = k () (f.apply s) := rfl

theorem require_eq_some {condition : Bool} {u : Unit} :
    require condition s = (some u, s') ↔ condition = true ∧ s' = s := by
  cases condition with
  | false => simp [require]
  | true =>
    change ((some (), s) = _) ↔ _
    simp [eq_comm]

theorem requireState_eq_some {condition : State → Bool} {u : Unit} :
    requireState condition s = (some u, s') ↔ condition s = true ∧ s' = s := by
  change require (condition s) s = _ ↔ _
  exact require_eq_some

/-! ### Trying -/

theorem rewind_eq_some {p : Parser α} {a : α} :
    rewind p s = (some a, s') ↔ p s = (some a, s') := by
  change rewindRun p s = _ ↔ _
  unfold rewindRun
  split
  · next h => simp [h]
  · next h => rw [h]

/-- **A rewound parser that fails leaves no trace.** -/
theorem rewind_eq_none {p : Parser α} :
    rewind p s = (none, s') ↔ (p s).1 = none ∧ s' = s := by
  change rewindRun p s = _ ↔ _
  rw [rewindRun_eq]
  rcases h : p s with ⟨_ | a, t⟩
  · simp [eq_comm]
  · simp

theorem found_eq_some {p : Parser α} {r : Option α} :
    found p s = (some r, s') ↔ p s = (r, s') := by
  change (some (p s).1, (p s).2) = _ ↔ _
  rcases p s with ⟨_, _⟩
  simp

theorem attempt_eq_some {p : Parser α} {r : Option α} :
    attempt p s = (some r, s') ↔
      (∃ a, r = some a ∧ p s = (some a, s')) ∨ (r = none ∧ (p s).1 = none ∧ s' = s) := by
  unfold attempt
  rw [found_eq_some]
  cases r with
  | none => simp [rewind_eq_none]
  | some a => simp [rewind_eq_some]

theorem orElse_eq_some {p q : Parser α} {a : α} :
    (p <|> q) s = (some a, s') ↔
      p s = (some a, s') ∨ ((p s).1 = none ∧ q s = (some a, s')) := by
  change Parser.orElse p (fun _ => q) s = _ ↔ _
  unfold Parser.orElse
  rw [bind_eq_some]
  constructor
  · rintro ⟨r, t, hr, h⟩
    obtain ⟨b, rfl, hb⟩ | ⟨rfl, hb, rfl⟩ := attempt_eq_some.mp hr
    · obtain ⟨rfl, rfl⟩ : b = a ∧ t = s' := by simpa using h
      exact .inl hb
    · exact .inr ⟨hb, h⟩
  · rintro (h | ⟨hp, h⟩)
    · exact ⟨some a, s', attempt_eq_some.mpr (.inl ⟨a, rfl, h⟩), rfl⟩
    · exact ⟨none, s, attempt_eq_some.mpr (.inr ⟨rfl, hp, rfl⟩), h⟩

theorem orElse_eq_none {p q : Parser α} (h : ((p <|> q) s).1 = none) :
    (p s).1 = none ∧ (q s).1 = none := by
  rcases hp : p s with ⟨_ | a, t⟩
  · rcases hq : q s with ⟨_ | b, u⟩
    · exact ⟨rfl, rfl⟩
    · rw [orElse_eq_some.mpr (.inr ⟨congrArg Prod.fst hp, hq⟩)] at h
      cases h
  · rw [orElse_eq_some.mpr (.inl hp)] at h
    cases h

/-- Looking ahead reads nothing. -/
@[simp] theorem succeeds_run (p : Parser α) (s : State) :
    succeeds p s = (some (p s).1.isSome, s) :=
  congrArg (Prod.mk _) (State.restore_checkpoint (p.extended s))

/-! ### Surroundings -/

/-- The outcome of a run whose last state is put right by `f`. -/
theorem adjusted_eq_some {outcome : Option α × State} {f : State → State} {a : α} :
    (outcome.1, f outcome.2) = (some a, s') ↔ ∃ t, outcome = (some a, t) ∧ s' = f t := by
  constructor
  · intro h
    obtain ⟨hr, hs⟩ := Prod.mk.inj h
    exact ⟨outcome.2, Prod.ext hr rfl, hs.symm⟩
  · rintro ⟨t, rfl, rfl⟩
    rfl

theorem inScope_eq_some {p : Parser α} {a : α} :
    inScope p s = (some a, s') ↔ ∃ t, p s = (some a, t) ∧ s' = { t with locals := s.locals } := by
  change ((p s).1, (p s).2.forgetLocals s.locals.length) = _ ↔ _
  rw [State.forgetLocals_of_extends (p.extended s)]
  exact adjusted_eq_some (f := fun t => { t with locals := s.locals })

theorem inBlock_eq_some {p : Parser α} {a : α} :
    inBlock p s = (some a, s') ↔
      ∃ t, p { s with blocks := s.blocks + 1 } = (some a, t) ∧ s' = { t with blocks := s.blocks } := by
  have hb := (p.extended { s with blocks := s.blocks + 1 }).blocks
  rw [← adjusted_eq_some (f := fun t => { t with blocks := s.blocks })]
  unfold inBlock
  simp only [hb, Nat.add_sub_cancel]

theorem deeper_eq_some {p : Parser α} {a : α} :
    deeper p s = (some a, s') ↔
      ∃ t, p { s with depth := s.depth + 1 } = (some a, t) ∧ s' = { t with depth := s.depth } := by
  have hd := (p.extended { s with depth := s.depth + 1 }).depth
  rw [← adjusted_eq_some (f := fun t => { t with depth := s.depth })]
  unfold deeper
  simp only [hd, Nat.add_sub_cancel]

/-! ### Tokens -/

@[simp] theorem token_run (s : State) : token s = (some s.current, s.advance) := rfl

/-- A token is read if the condition before it holds. -/
theorem requireState_token_eq_some {condition : State → Bool} {t : Token} :
    (do requireState condition; token) s = (some t, s') ↔
      condition s = true ∧ t = s.current ∧ s' = s.advance := by
  rw [bind_eq_some]
  constructor
  · rintro ⟨_, t', h, ht⟩
    obtain ⟨hc, rfl⟩ := requireState_eq_some.mp h
    cases ht
    exact ⟨hc, rfl, rfl⟩
  · rintro ⟨hc, rfl, rfl⟩
    exact ⟨(), s, requireState_eq_some.mpr ⟨hc, rfl⟩, rfl⟩

theorem eat_eq_some {kind : TokenKind} {t : Token} :
    eat kind s = (some t, s') ↔ s.kind = kind ∧ t = s.current ∧ s' = s.advance := by
  unfold eat
  rw [requireState_token_eq_some, beq_iff_eq]

theorem eatWord_eq_some {word : String} {t : Token} :
    eatWord word s = (some t, s') ↔
      s.current.isWord word = true ∧ t = s.current ∧ s' = s.advance :=
  requireState_token_eq_some

end Story.Parser
