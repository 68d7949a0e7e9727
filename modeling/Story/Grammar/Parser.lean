import Story.Grammar.Extension

/-!
# Parsers

A `Parser α` reads an `α` off a state, or fails. Either way there is a state after it: a parser that
fails may have read tokens, recorded diagnostics and made names known on the way. Who goes on after a
failure has to come back first. A parser carries the proof that the state after it extends the one
before, so that coming back is exact whatever it has done (`rewind_eq`).

* `rewind` runs a parser and, if it fails, comes back to where it started; `attempt` and `orElse` go
  on from there;
* `inScope`, `inBlock` and `deeper` change the surroundings of a parser and change them back after
  it, whether it fails or not. Here the proof is not just composition: each is balanced because the
  parser inside is, so that what it undoes is what it did;
* `loop` repeats a parser that says each time whether to go on. Every round has to leave fewer
  tokens than it found; this is what makes reading end.
-/

namespace Story

/-- A reader of an `α`: the value, unless it fails, and the state after it, which extends the state
before it in any case. -/
structure Parser (α : Type) where
  /-- The value and the state after it. -/
  run : State → Option α × State
  extended : ∀ s : State, s.Extends (run s).2

namespace Parser

variable {α β σ : Type}

instance : CoeFun (Parser α) fun _ => State → Option α × State := ⟨run⟩

/-- The state after a parser extends the one before. -/
theorem extends_of_eq {p : Parser α} {s s' : State} {r : Option α} (h : p s = (r, s')) :
    s.Extends s' := by
  have hs := p.extended s
  rwa [h] at hs

/-- Read nothing and give `a`. -/
protected def pure (a : α) : Parser α := ⟨fun s => (some a, s), .refl⟩

/-- The run of `p` and of what its value calls for. -/
def bindRun (p : Parser α) (f : α → Parser β) (s : State) : Option β × State :=
  match p s with
  | (none, s') => (none, s')
  | (some a, s') => f a s'

theorem extends_bindRun (p : Parser α) (f : α → Parser β) (s : State) :
    s.Extends (bindRun p f s).2 := by
  unfold bindRun
  split
  · -- The parser failed, or what its value calls for goes on from there.
    next h => exact extends_of_eq h
  · next a s' h => exact (extends_of_eq h).trans ((f a).extended s')

/-- Read by `p`, then by what its value calls for. -/
protected def bind (p : Parser α) (f : α → Parser β) : Parser β := ⟨bindRun p f, extends_bindRun p f⟩

instance : Monad Parser where
  pure := Parser.pure
  bind := Parser.bind

/-- Fail. -/
def fail : Parser α := ⟨fun s => (none, s), .refl⟩

/-- Something seen in the state. -/
def look (f : State → α) : Parser α := ⟨fun s => (some (f s), s), .refl⟩

/-- The state. -/
def state : Parser State := look id

/-- Change the state. -/
def change (f : Step) : Parser Unit := ⟨fun s => (some (), f.apply s), f.extended⟩

/-- Go on only if the condition holds. -/
def require (condition : Bool) : Parser Unit := if condition then Parser.pure () else fail

/-- Go on only if the state satisfies the condition. -/
def requireState (condition : State → Bool) : Parser Unit := do
  require (condition (← state))

/-! ### Trying -/

/-- The run of `p`, back where it started if it fails. -/
def rewindRun (p : Parser α) (s : State) : Option α × State :=
  match p s with
  | (none, s') => (none, s'.restore s.checkpoint)
  | (some a, s') => (some a, s')

/-- **Coming back is exact.** A parser that is rewound leaves, when it fails, the very state that it
was given. -/
theorem rewindRun_eq (p : Parser α) (s : State) :
    rewindRun p s = if (p s).1.isSome then p s else (none, s) := by
  unfold rewindRun
  split
  · next s' h =>
    rw [State.restore_checkpoint (extends_of_eq h), h]
    rfl
  · next a s' h =>
    rw [h]
    rfl

/-- Read by `p`; if it fails, come back to where it started. -/
def rewind (p : Parser α) : Parser α where
  run := rewindRun p
  extended s := by
    rw [rewindRun_eq]
    split
    · exact p.extended s
    · exact .refl s

/-- Read by `p`, and tell what it gives even if it fails. Nothing is undone. -/
def found (p : Parser α) : Parser (Option α) where
  run s :=
    match p s with
    | (result, s') => (some result, s')
  extended := p.extended

/-- Read by `p` if it succeeds, and otherwise nothing. -/
def attempt (p : Parser α) : Parser (Option α) := found (rewind p)

/-- Read by `p` or, if it fails, by `q` from where `p` started. -/
protected def orElse (p : Parser α) (q : Unit → Parser α) : Parser α := do
  match ← attempt p with
  | some a => return a
  | none => q ()

instance : OrElse (Parser α) := ⟨Parser.orElse⟩

/-- Whether `p` would succeed here. Nothing is read. -/
def succeeds (p : Parser α) : Parser Bool where
  run s :=
    match p s with
    | (result, s') => (some result.isSome, s'.restore s.checkpoint)
  extended s := by
    dsimp only
    -- Whatever `p` has read is undone, so the state is the one before.
    rw [State.restore_checkpoint (p.extended s)]
    exact .refl s

/-! ### Tokens -/

/-- Read any token. -/
def token : Parser Token := do
  let t ← look State.current
  change .advance
  return t

/-- Read a token of the kind. -/
def eat (kind : TokenKind) : Parser Token := do
  requireState fun s => s.kind == kind
  token

/-- Read the word. -/
def eatWord (word : String) : Parser Token := do
  requireState fun s => s.current.isWord word
  token

/-- Read a token if it satisfies the condition, and tell whether it did. -/
def eatsIf (condition : Token → Bool) : Parser Bool := do
  if condition (← look State.current) then
    change .advance
    return true
  else
    return false

/-- Read a token of the kind if there is one, and tell whether there was. -/
def eats (kind : TokenKind) : Parser Bool := eatsIf fun t => t.kind == kind

/-- Read the word if it is there, and tell whether it was. -/
def eatsWord (word : String) : Parser Bool := eatsIf fun t => t.isWord word

/-- Read blanks, and tell whether there were any. -/
def blanks : Parser Bool := do
  let found ← look fun s => s.kind.isBlank
  change .skipBlanks
  return found

/-- Read blanks, at least one. -/
def someBlanks : Parser Unit := do
  require (← blanks)

/-- Read blanks and comments and, if `multiline`, ends of lines. -/
def trivia (multiline : Bool) : Parser Unit := change (.skipTrivia multiline)

/-- Where the current token starts. -/
def position : Parser Position := look State.position

/-- From `start` to the end of what has been read. -/
def spanFrom (start : Position) : Parser Span := look (·.spanFrom start)

/-! ### Recording -/

/-- Record a diagnostic about a span. -/
def reportAt (span : Span) (m : Message) (arguments : List String) : Parser Unit :=
  change (.reportAt span m arguments)

/-- Record a diagnostic about the current token. -/
def report (m : Message) (arguments : List String) : Parser Unit :=
  change (.report m arguments)

/-- Make a name known as a script variable. -/
def declare (name : String) : Parser Unit := change (.declare name)

/-- Record that a sign or a word is expected here. -/
def expected (what : String) : Parser Unit := report .expected [what]

/-- Read a token of the kind, or record that one is expected; tell whether there was one. -/
def expect (kind : TokenKind) : Parser Bool := do
  let found ← eats kind
  if found then return true
  expected kind.text
  return false

/-- Record that an expression is expected here, and stand in for it. -/
def missingHere : Parser Expression := do
  report .expressionExpected []
  return .missing (← look State.here)

/-! ### Surroundings -/

/-- Read by `p`; the names that it makes known are forgotten after it. -/
def inScope (p : Parser α) : Parser α where
  run s :=
    match p s with
    | (result, s') => (result, s'.forgetLocals s.locals.length)
  extended s := by
    have h := p.extended s
    dsimp only
    -- The names of `s` are the earliest ones, and these are what is left.
    rw [State.forgetLocals_of_extends h]
    exact { h with locals := List.suffix_rfl }

/-- Read by `p` as inside one more block of lines. -/
def inBlock (p : Parser α) : Parser α where
  run s :=
    match p { s with blocks := s.blocks + 1 } with
    | (result, s') => (result, { s' with blocks := s'.blocks - 1 })
  extended s := by
    have h := p.extended { s with blocks := s.blocks + 1 }
    have hb : (p { s with blocks := s.blocks + 1 }).2.blocks = s.blocks + 1 := h.blocks
    exact { h with blocks := by simp [hb] }

/-- Read by `p` one level of nesting further in. -/
def deeper (p : Parser α) : Parser α where
  run s :=
    match p { s with depth := s.depth + 1 } with
    | (result, s') => (result, { s' with depth := s'.depth - 1 })
  extended s := by
    have h := p.extended { s with depth := s.depth + 1 }
    have hd : (p { s with depth := s.depth + 1 }).2.depth = s.depth + 1 := h.depth
    exact { h with depth := by simp [hd] }

/-! ### Repetition -/

/-- What a round of a loop comes to. -/
inductive Round (σ α : Type) where
  /-- Go on with this. -/
  | again (next : σ)
  /-- Stop with this. -/
  | done (result : α)

/-- Repeat `body` until it is done. A round that goes on and leaves no fewer tokens than it found
makes the loop fail. -/
def loop (body : σ → Parser (Round σ α)) (a : σ) (s : State) : Option α × State :=
  match body a s with
  | (none, s') => (none, s')
  | (some (.done result), s') => (some result, s')
  | (some (.again next), s') =>
    if s'.rest.length < s.rest.length then loop body next s' else (none, s')
termination_by s.rest.length

theorem extends_loop (body : σ → Parser (Round σ α)) (a : σ) (s : State) :
    s.Extends (loop body a s).2 := by
  fun_induction loop body a s with
  | case1 a s s' h => exact extends_of_eq h
  | case2 a s r s' h => exact extends_of_eq h
  | case3 a s next s' h _ ih => exact (extends_of_eq h).trans ih
  | case4 a s next s' h _ => exact extends_of_eq h

/-- `loop` as a parser. -/
def repeated (body : σ → Parser (Round σ α)) (a : σ) : Parser α := ⟨loop body a, extends_loop body a⟩

/-- Read by `p` and, if no token has been read, one token more; tell what was read. -/
def withProgress (p : Parser α) : Parser (Option α) := do
  let before ← look State.cursor
  let result ← found p
  let after ← look State.cursor
  if after == before then change .advance
  return result

end Parser

end Story
