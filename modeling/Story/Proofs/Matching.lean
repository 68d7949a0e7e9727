import Story.Proofs.Lens
import Story.Proofs.Progress

/-!
# States that read alike

Two readers that have come to matching states will read the same from there, as far as it can be seen: the
tokens that are left match one by one, the same names are known, and the surroundings are the same. What
was found before does not matter. What the two have found since they started matches too.

* `Token.Matches` — tokens of one kind and one text, seen alike. An end of line may be written in two ways;
* `State.Matches` — all that reading depends on matches;
* one lemma for each change of a state: from matching states it leads to matching states.
-/

namespace Story

variable {k : Likeness}

/-! ### Tokens -/

/-- The text of an end of line. -/
def IsLineBreak (text : String) : Prop := text = "\n" ∨ text = "\r\n"

/-- **Tokens that read alike.** -/
structure Token.Matches (k : Likeness) (t u : Token) : Prop where
  kind : t.kind = u.kind
  text : t.text = u.text ∨ t.kind = .endline ∧ IsLineBreak t.text ∧ IsLineBreak u.text
  chars : k.left.text t.text = k.right.text u.text
  name : t.kind = .word → Alike k t.text u.text
  start : Alike k t.start u.start
  stop : Alike k t.stop u.stop

namespace Token.Matches

variable {t u : Token}

theorem text_eq (h : t.Matches k u) (hkind : t.kind ≠ .endline) : t.text = u.text :=
  h.text.resolve_right fun hbreak => hkind hbreak.1

theorem word_eq (h : t.Matches k u) (hkind : t.kind = .word) : t.text = u.text :=
  h.text_eq (by rw [hkind]; decide)

/-- A word is the same on both sides, and as a name it looks the same. -/
theorem word_alike (h : t.Matches k u) (hkind : t.kind = .word) : Alike k u.text u.text :=
  h.word_eq hkind ▸ h.name hkind

/-- What does not tell two ends of lines apart does not tell the tokens apart. -/
theorem test {β : Type} {f : String → β} (h : t.Matches k u) (hf : f "\n" = f "\r\n") :
    f t.text = f u.text := by
  obtain htext | ⟨-, ht, hu⟩ := h.text
  · rw [htext]
  · obtain ht | ht := ht <;> obtain hu | hu := hu <;> rw [ht, hu]
    · exact hf
    · exact hf.symm

theorem span (h : t.Matches k u) : Alike k t.span u.span := alike_span h.start h.stop

theorem isWord_eq (h : t.Matches k u) {word : String} (hword : word ≠ "\n" ∧ word ≠ "\r\n") :
    t.isWord word = u.isWord word := by
  have htext : (t.text == word) = (u.text == word) := by
    refine h.test (f := (· == word)) ?_
    rw [beq_eq_false_iff_ne.mpr hword.1.symm, beq_eq_false_iff_ne.mpr hword.2.symm]
  rw [Token.isWord, Token.isWord, h.kind, htext]

end Token.Matches

theorem matches_endfile {p q : Position} (h : Alike k p q) : (Token.endfile p).Matches k (.endfile q) where
  kind := rfl
  text := .inl rfl
  chars := k.left.text_empty.trans k.right.text_empty.symm
  name := nofun
  start := h
  stop := h

/-- Texts that are put together from matching tokens look the same. -/
theorem joined_chars {ts us : List Token} (h : List.Forall₂ (Token.Matches k) ts us) :
    k.left.text (String.join (ts.map Token.text)) = k.right.text (String.join (us.map Token.text)) := by
  rw [k.left.text_join, k.right.text_join, List.map_map, List.map_map]
  congr 1
  induction h with
  | nil => rfl
  | cons htu _ ih => exact congrArg₂ List.cons htu.chars ih

/-! ### What has been found -/

/-- Both lists have grown alike, each from its own start. -/
def Grown {α : Type} (R : α → α → Prop) (start start' xs ys : List α) : Prop :=
  ∃ new new', xs = new ++ start ∧ ys = new' ++ start' ∧ List.Forall₂ R new new'

namespace Grown

variable {α : Type} {R : α → α → Prop} {start start' xs ys : List α}

theorem refl (R : α → α → Prop) (start start' : List α) : Grown R start start' start start' :=
  ⟨[], [], rfl, rfl, .nil⟩

theorem cons {x y : α} (hxy : R x y) (h : Grown R start start' xs ys) :
    Grown R start start' (x :: xs) (y :: ys) := by
  obtain ⟨new, new', rfl, rfl, hall⟩ := h
  exact ⟨x :: new, y :: new', rfl, rfl, .cons hxy hall⟩

theorem length_eq (h : Grown R start start' xs ys) : xs.length + start'.length = ys.length + start.length := by
  obtain ⟨new, new', rfl, rfl, hall⟩ := h
  have hlength := hall.length_eq
  simp only [List.length_append]
  omega

end Grown

/-! ### States -/

/-- **States that read alike.** -/
structure State.Matches (k : Likeness) (s t : State) : Prop where
  rest : List.Forall₂ (Token.Matches k) s.rest t.rest
  finish : Alike k s.finish t.finish
  cursor : s.cursor + k.second.cursor = t.cursor + k.first.cursor
  reports : Grown (Alike k) k.first.reports k.second.reports s.reports t.reports
  imports : Grown (Alike k) k.first.imports k.second.imports s.imports t.imports
  locals : s.locals = t.locals
  blocks : s.blocks = t.blocks
  depth : s.depth = t.depth
  indentSize : s.indentSize = t.indentSize

namespace State

theorem peek_zero (s : State) : s.peek 0 = s.current := by
  unfold peek current
  cases s.rest <;> rfl

/-- What is skipped as trivia, by the kinds of the next two tokens. -/
theorem skipTrivia_eq (multiline : Bool) (s : State) :
    s.skipTrivia multiline =
      if s.kind.isBlank || (multiline && s.kind == .endline) then s.advance.skipTrivia multiline
      else if s.kind = .slash then
        if (s.peek 1).kind = .slash then s.skipLine.skipTrivia multiline
        else if (s.peek 1).kind = .star then s.skipComment.skipTrivia multiline
        else s
      else s := by
  rw [skipTrivia]
  split
  · -- At the end of the file no condition holds, and nothing is skipped.
    next hrest =>
    have hend : s.kind = .endfile := by simp [State.kind, State.current, hrest, Token.endfile]
    simp [hend, TokenKind.isBlank]
  · next t ts hrest =>
    have hkind : s.kind = t.kind := by simp [State.kind, State.current, hrest]
    simp [hkind]

/-- **Induction along what is skipped as trivia:** a blank, a comment up to the end of the line, or one
between its signs leads to a state with fewer tokens left. -/
@[elab_as_elim]
theorem trivia_induction (multiline : Bool) {motive : State → Prop}
    (step : ∀ s : State,
      ((s.kind.isBlank || (multiline && s.kind == .endline)) = true → motive s.advance) →
      (s.kind = .slash → (s.peek 1).kind = .slash → motive s.skipLine) →
      (s.kind = .slash → (s.peek 1).kind = .star → motive s.skipComment) → motive s)
    (s : State) : motive s := by
  -- A call for each of the three steps, and before it that the step has read a token.
  refine step s (fun hblank => ?_) (fun hslash _ => ?_) fun hslash _ => ?_
  · have hrest : s.rest ≠ [] := rest_ne_nil_of_kind fun hend => by simp [hend, TokenKind.isBlank] at hblank
    have hlt := length_advance_lt hrest
    exact trivia_induction multiline step s.advance
  · obtain ⟨x, xs, hxs⟩ := List.exists_cons_of_ne_nil (rest_ne_nil_of_kind_eq hslash (by decide))
    have hx : x.kind = .slash := by rw [← hslash, State.kind, State.current, hxs, List.headD_cons]
    have hlt := length_skipLine_lt hxs (by rw [hx]; rfl)
    exact trivia_induction multiline step s.skipLine
  · have hlt := length_skipComment_lt (rest_ne_nil_of_kind_eq hslash (by decide))
    exact trivia_induction multiline step s.skipComment
termination_by s.rest.length

theorem kind_skipTrivia_ne (s : State) : (s.skipTrivia true).kind ≠ .endline := by
  induction s using trivia_induction true with
  | step s hadvance hskipLine hskipComment =>
    rw [skipTrivia_eq]
    split_ifs with hblank hslash hline hcomment
    · exact hadvance hblank
    · exact hskipLine hslash hline
    · exact hskipComment hslash hcomment
    · -- A sign that opens no comment, or any other token, is where skipping ends.
      rw [hslash]
      decide
    · exact fun hend => hblank (by simp [hend])

end State

namespace State.Matches

variable {s t s' t' : State}

/-! Looking at tokens. -/

theorem length_eq (h : s.Matches k t) : s.rest.length = t.rest.length := h.rest.length_eq

theorem peek (h : s.Matches k t) (n : Nat) : (s.peek n).Matches k (t.peek n) := by
  have hget {ts us : List Token} (hall : List.Forall₂ (Token.Matches k) ts us) (n : Nat) :
      (ts.getD n (.endfile s.finish)).Matches k (us.getD n (.endfile t.finish)) := by
    induction hall generalizing n with
    | nil => exact matches_endfile h.finish
    | cons htoken _ ih =>
      cases n with
      | zero => exact htoken
      | succ n => exact ih n
  exact hget h.rest n

theorem current (h : s.Matches k t) : s.current.Matches k t.current := by
  rw [← peek_zero, ← peek_zero]
  exact h.peek 0

theorem kind_eq (h : s.Matches k t) : s.kind = t.kind := h.current.kind

theorem peek_kind_eq (h : s.Matches k t) (n : Nat) : (s.peek n).kind = (t.peek n).kind := (h.peek n).kind

theorem position (h : s.Matches k t) : Alike k s.position t.position := h.current.start

theorem here (h : s.Matches k t) : Alike k s.here t.here := alike_span h.position h.position

theorem spanFrom (h : s.Matches k t) {p q : Position} (hstart : Alike k p q) :
    Alike k (s.spanFrom p) (t.spanFrom q) := alike_span hstart h.position

theorem isEof_eq (h : s.Matches k t) : s.isEof = t.isEof := by rw [isEof, isEof, h.kind_eq]

theorem isLineEnd_eq (h : s.Matches k t) : s.isLineEnd = t.isLineEnd := by
  rw [isLineEnd, isLineEnd, h.kind_eq]

theorem atSpread_eq (h : s.Matches k t) : s.atSpread = t.atSpread := by
  rw [atSpread, atSpread, h.kind_eq, h.peek_kind_eq, h.peek_kind_eq]

theorem atLineComment_eq (h : s.Matches k t) : s.atLineComment = t.atLineComment := by
  rw [atLineComment, atLineComment, h.kind_eq, h.peek_kind_eq]

/-! Reading tokens. -/

/-- Other tokens are left, and as many more of them have been read on both sides. -/
theorem read (h : s.Matches k t) {ts us : List Token} {m n : Nat}
    (hrest : List.Forall₂ (Token.Matches k) ts us)
    (hcursor : m + k.second.cursor = n + k.first.cursor) :
    State.Matches k { s with rest := ts, cursor := m } { t with rest := us, cursor := n } :=
  { h with rest := hrest, cursor := hcursor }

theorem advance (h : s.Matches k t) : s.advance.Matches k t.advance := by
  unfold State.advance
  -- Both have a token left or neither has.
  have hrest := h.rest
  generalize hs : s.rest = ts at hrest
  generalize ht : t.rest = us at hrest
  cases hrest with
  | nil => exact h
  | cons _ hrest =>
    refine h.read hrest ?_
    have hcursor := h.cursor
    omega

theorem advanceBy (h : s.Matches k t) (n : Nat) : (s.advanceBy n).Matches k (t.advanceBy n) := by
  induction n generalizing s t with
  | zero => exact h
  | succ n ih => exact ih h.advance

/-- Matching tokens are skipped together. -/
theorem skipWhile (h : s.Matches k t) {p : Token → Bool}
    (hp : ∀ x y : Token, x.kind = y.kind → p x = p y) :
    (s.skipWhile p).Matches k (t.skipWhile p) := by
  -- The same tokens are dropped on both sides, so as many have been read.
  have hboth {ts us : List Token} (hall : List.Forall₂ (Token.Matches k) ts us) :
      List.Forall₂ (Token.Matches k) (ts.dropWhile p) (us.dropWhile p) ∧
        (ts.takeWhile p).length = (us.takeWhile p).length := by
    induction hall with
    | nil => exact ⟨.nil, rfl⟩
    | @cons x y xs ys htoken hall ih =>
      rw [List.dropWhile_cons, List.dropWhile_cons, List.takeWhile_cons, List.takeWhile_cons,
        hp x y htoken.kind]
      by_cases hy : p y = true
      · simpa [hy] using ih
      · simpa [hy] using ⟨htoken, hall⟩
  obtain ⟨hrest, hlength⟩ := hboth h.rest
  refine h.read hrest ?_
  have hcursor := h.cursor
  omega

theorem skipBlanks (h : s.Matches k t) : s.skipBlanks.Matches k t.skipBlanks :=
  h.skipWhile fun _ _ hkind => by rw [hkind]

theorem skipLine (h : s.Matches k t) : s.skipLine.Matches k t.skipLine :=
  h.skipWhile fun _ _ hkind => by rw [hkind]

/-- The tokens up to the end of a line match. -/
theorem restOfLine {ts us : List Token} (h : List.Forall₂ (Token.Matches k) ts us) :
    List.Forall₂ (Token.Matches k) (ts.takeWhile fun x => !x.kind.isLineEnd)
      (us.takeWhile fun x => !x.kind.isLineEnd) := by
  induction h with
  | nil => exact .nil
  | @cons x y xs ys hxy _ ih =>
    rw [List.takeWhile_cons, List.takeWhile_cons, hxy.kind]
    split
    · exact .cons hxy ih
    · exact .nil

theorem lineText_chars (h : s.Matches k t) : k.left.text s.lineText = k.right.text t.lineText :=
  joined_chars (restOfLine h.rest)

/-- Up to the end of a line the texts are the same. -/
theorem lineText_eq (h : s.Matches k t) : s.lineText = t.lineText := by
  -- Only ends of lines may be spelled differently, and before the end of a line there is none.
  have htexts {ts us : List Token} (hall : List.Forall₂ (Token.Matches k) ts us)
      (hends : ∀ x ∈ ts, x.kind ≠ .endline) : ts.map Token.text = us.map Token.text := by
    induction hall with
    | nil => rfl
    | cons hxy _ ih =>
      obtain ⟨hx, hxs⟩ := List.forall_mem_cons.mp hends
      rw [List.map_cons, List.map_cons, ih hxs, hxy.text_eq hx]
  rw [lineText, lineText, htexts (restOfLine h.rest) fun x hx hkind => ?_]
  have hend := List.all_eq_true.mp List.all_takeWhile x hx
  simp [hkind, TokenKind.isLineEnd] at hend

/-! Recording. -/

theorem reportAt (h : s.Matches k t) {span span' : Span} (hspan : Alike k span span') (m : Message)
    (arguments : List String) : (s.reportAt span m arguments).Matches k (t.reportAt span' m arguments) :=
  { h with reports := h.reports.cons (congrArg (Diagnostic.mk _ _ · _ _) hspan) }

theorem report (h : s.Matches k t) (m : Message) (arguments : List String) :
    (s.report m arguments).Matches k (t.report m arguments) :=
  h.reportAt h.current.span m arguments

theorem declare (h : s.Matches k t) (name : String) : (s.declare name).Matches k (t.declare name) :=
  { h with locals := congrArg (name :: ·) h.locals }

theorem addImport (h : s.Matches k t) {i j : Import} (hij : Alike k i j) :
    (s.addImport i).Matches k (t.addImport j) :=
  { h with imports := h.imports.cons hij }

/-! Comments and trivia. -/

theorem commentLength_eq {ts us : List Token} (h : List.Forall₂ (Token.Matches k) ts us) :
    commentLength ts = commentLength us := by
  induction h with
  | nil => rfl
  | @cons x y xs ys hxy hall ih =>
    cases hall with
    | nil => rfl
    | cons hnext _ => rw [commentLength, commentLength, ih, hxy.kind, hnext.kind]

theorem skipComment (h : s.Matches k t) : s.skipComment.Matches k t.skipComment := by
  have hinside := h.advanceBy 2
  unfold State.skipComment
  dsimp only
  rw [commentLength_eq hinside.rest, hinside.length_eq]
  split
  · exact hinside.advanceBy _
  · exact (hinside.advanceBy _).reportAt h.current.span _ _

theorem skipTrivia (h : s.Matches k t) (multiline : Bool) :
    (s.skipTrivia multiline).Matches k (t.skipTrivia multiline) := by
  -- Both readers see the same kinds of tokens, so the second skips what the first does.
  induction s using trivia_induction multiline generalizing t with
  | step s hadvance hskipLine hskipComment =>
    rw [skipTrivia_eq multiline s, skipTrivia_eq multiline t, ← h.kind_eq, ← h.peek_kind_eq 1]
    split_ifs with hblank hslash hline hcomment
    · exact hadvance hblank h.advance
    · exact hskipLine hslash hline h.skipLine
    · exact hskipComment hslash hcomment h.skipComment
    · exact h
    · exact h

theorem restIsTrivia_eq (h : s.Matches k t) : s.restIsTrivia = t.restIsTrivia :=
  (h.skipTrivia false).isLineEnd_eq

end State.Matches

end Story
