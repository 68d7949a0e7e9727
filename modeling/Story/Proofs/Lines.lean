import Story.Proofs.Arrangement
import Story.Proofs.Loops

/-!
# The lines of a story

Reading a story is reading lines until the end of the file. Each of the six kinds of lines finds the end
of its line in its own way, some give up and leave the line to the next kind, and a blank line is passed
over token by token. All of them come to the same:

* `State.Finishes` — how a line is finished, and `Grammar.ReadUpTo`: what is read before;
* `Grammar.line_readUpTo` — what one line does, whichever of the six kinds it is of, and
  `Grammar.isLineEnd_of_line_fails`: only a blank line is none;
* `Grammar.moduleRound_arranges`, `Grammar.loop_arranges` — from what one round does to the arrangement
  of the lines to what all rounds do.

So no token of a story is lost without a word (`parseModule_accounts`).
-/

namespace Story

open Story.Parser Story.Grammar

/-! ### The end of a line -/

namespace State

/-- The end of the line is read, or the file ends. -/
def Ends (s s' : State) : Prop := s.kind = .endline ∧ s' = s.advance ∨ s.isEof = true ∧ s' = s

/-- A line can start here, or else there is none before the end of the line. -/
def AtLineStart (s : State) : Prop := s.position.column = 0 ∨ s.skipBlanks.isLineEnd = true

theorem rest_eq_of_kind {s : State} {kind : TokenKind} (h : s.kind = kind) (hk : kind ≠ .endfile) :
    s.rest = s.current :: s.advance.rest := by
  rcases hs : s.rest with _ | ⟨t, ts⟩
  · exact absurd hs (rest_ne_nil_of_kind_eq h hk)
  · simp [current, advance, hs]

theorem rest_eq_nil {s : State} (hs : s.Placed) (h : s.isEof = true) : s.rest = [] := by
  rcases hr : s.rest with _ | ⟨t, ts⟩
  · rfl
  · have ht : t.kind = .endfile := by simpa [isEof, kind, current, hr] using h
    exact absurd ht (hs.kind t (by simp [hr]))

theorem isLineEnd_skipLine (s : State) : s.skipLine.isLineEnd = true := by
  have hnot := List.head?_dropWhile_not (fun t : Token => !t.kind.isLineEnd) s.rest
  unfold isLineEnd kind current skipLine
  rw [rest_skipWhile]
  cases hr : s.rest.dropWhile fun t => !t.kind.isLineEnd with
  | nil => rfl
  | cons t ts =>
    rw [hr] at hnot
    simpa using hnot

namespace Ends

variable {s s' : State}

theorem arranges (h : s.Ends s') {reports : List Diagnostic} {ls : List Line}
    (hs' : Arranges reports s'.rest ls) : Arranges reports s.rest ls := by
  obtain ⟨hk, rfl⟩ | ⟨-, rfl⟩ := h
  · rw [rest_eq_of_kind hk (by decide)]
    exact .blank (.inr (congrArg TokenKind.isLineEnd hk)) hs'
  · exact hs'

theorem atLineStart (h : s.Ends s') (hs : s.Placed) : s'.AtLineStart := by
  obtain ⟨hk, rfl⟩ | ⟨heof, rfl⟩ := h
  · -- The position after the end of a line is the one where its token stops.
    left
    have hrest := rest_eq_of_kind hk (by decide)
    have hmem : s.current ∈ s.rest := hrest ▸ List.mem_cons_self
    have hpath := hs.path
    rw [hrest, ← (extends_advance s).finish] at hpath
    rw [position_eq hpath.2]
    exact hs.column s.current hmem hk
  · -- At the end of the file nothing is left, blank or not.
    right
    simp [skipBlanks, isLineEnd, kind, current, rest_skipWhile, rest_eq_nil hs heof, Token.endfile,
      TokenKind.isLineEnd]

theorem reports (h : s.Ends s') : s'.reports = s.reports := by
  obtain ⟨-, rfl⟩ | ⟨-, rfl⟩ := h
  · unfold advance
    split <;> rfl
  · rfl

end Ends

/-- **The end of a line is found:** after blanks and comments or, if there is something else, after a
report on all of it. -/
def Finishes (s s' : State) : Prop :=
  (s.skipTrivia false).Ends s' ∨ ∃ arguments,
    ((s.skipTrivia false).skipLine.reportAt ⟨(s.skipTrivia false).position,
      (s.skipTrivia false).skipLine.position⟩ .unexpectedRest arguments).Ends s'

namespace Finishes

variable {s s' : State}

theorem atLineStart (h : s.Finishes s') (hs : s.Placed) : s'.AtLineStart := by
  have htrivia := extends_skipTrivia false s
  obtain h | ⟨arguments, h⟩ := h
  · exact h.atLineStart (hs.extended htrivia)
  · exact h.atLineStart (hs.extended
      ((htrivia.trans (extends_skipWhile _ _)).trans (extends_reportAt _ _ _ _)))

/-- What comes before the end of the line, and before what is arranged after it. -/
theorem arranges (h : s.Finishes s') (hs : s.Placed) {reports : List Diagnostic} {ls : List Line}
    (hreports : ∀ d ∈ s'.reports, d ∈ reports) (hs' : Arranges reports s'.rest ls) :
    ∃ trail left ts, s.rest = trail ++ (left ++ ts) ∧ Trailing trail (left ++ ts) ∧
      (left = [] ∨ ∃ d ∈ reports, d.code = some Message.unexpectedRest.code ∧
        Token.Path d.span.start left d.span.stop) ∧ Arranges reports ts ls := by
  obtain ⟨trail, hrest, htrail⟩ := skipTrivia_trail s
  obtain h | ⟨arguments, h⟩ := h
  · exact ⟨trail, [], _, hrest, htrail, .inl rfl, h.arranges hs'⟩
  · -- What is passed over up to the end of the line is just what the report is about.
    obtain ⟨left, hleft, -, hpath⟩ :=
      (hs.extended (extends_skipTrivia false s)).path_read (extends_skipWhile _ _)
    have hreport : Diagnostic.of .unexpectedRest ⟨(s.skipTrivia false).position,
        (s.skipTrivia false).skipLine.position⟩ arguments ∈ reports := by
      apply hreports
      rw [h.reports]
      exact List.mem_cons_self
    exact ⟨trail, left, _, hleft ▸ hrest, hleft ▸ htrail, .inr ⟨_, hreport, rfl, hpath⟩, h.arranges hs'⟩

end Finishes

end State

namespace Grammar

variable {g : Nested} {s t s' : State} {l : Line}

theorem eats_run (kind : TokenKind) (s : State) :
    eats kind s = (some (s.kind == kind), if s.kind == kind then s.advance else s) := by
  unfold eats eatsIf
  rw [look_bind_run]
  change (if (s.kind == kind) = true then _ else _ : Parser Bool) s = _
  split
  · next h => rw [h]; rfl
  · next h => rw [eq_false_of_ne_true h]; rfl

theorem eats_ends {found : Bool} (hs : s.isLineEnd = true) (h : eats .endline s = (some found, s')) :
    s.Ends s' := by
  rw [eats_run] at h
  cases h
  by_cases hk : s.kind = .endline
  · exact .inl ⟨hk, by simp [hk]⟩
  · -- The only other end of a line is that of the file.
    have heof : s.kind = .endfile := by
      revert hs hk
      unfold State.isLineEnd
      cases s.kind <;> decide
    exact .inr ⟨by simp [State.isEof, heof], by simp [hk]⟩

theorem lineEnds_cases {found : Bool} (h : lineEnds s = (some found, s')) :
    (found = true ∧ (s.skipTrivia false).Ends s') ∨ (found = false ∧ s' = s.skipTrivia false) := by
  obtain ⟨_, _, ⟨⟩, h⟩ := bind_eq_some.mp h
  obtain ⟨atEnd, t, hend, h⟩ := bind_eq_some.mp h
  change eats .endline (s.skipTrivia false) = _ at hend
  cases atEnd with
  | true =>
    have hline : (s.skipTrivia false).isLineEnd = true := by
      rw [eats_run] at hend
      have hk : (s.skipTrivia false).kind = .endline := by simpa using congrArg Prod.fst hend
      rw [State.isLineEnd, hk]
      rfl
    cases h
    exact .inl ⟨rfl, eats_ends hline hend⟩
  | false =>
    -- There was no end of a line to be read, but the file may end here.
    rw [eats_run] at hend
    have ht : t = s.skipTrivia false := by
      obtain ⟨hk, rfl⟩ := Prod.mk.inj hend
      simp [Option.some.inj hk]
    subst ht
    cases h
    cases heof : (s.skipTrivia false).isEof with
    | true => exact .inl ⟨rfl, .inr ⟨heof, rfl⟩⟩
    | false => exact .inr ⟨rfl, rfl⟩

theorem lineEnd_finishes {u : Unit} (h : lineEnd s = (some u, s')) : s.Finishes s' := by
  obtain ⟨found, t, hfound, h⟩ := bind_eq_some.mp h
  obtain ⟨rfl, rfl⟩ := require_eq_some.mp h
  obtain ⟨-, hends⟩ | ⟨hfalse, -⟩ := lineEnds_cases hfound
  · exact .inl hends
  · cases hfalse

theorem finishLine_finishes {u : Unit} (h : finishLine s = (some u, s')) : s.Finishes s' := by
  obtain ⟨found, t, hfound, h⟩ := bind_eq_some.mp h
  obtain ⟨rfl, hends⟩ | ⟨rfl, rfl⟩ := lineEnds_cases hfound
  · cases h
    exact .inl hends
  · -- The state is noted, the line is passed over, its span is taken, and the report is made.
    obtain ⟨_, _, ⟨⟩, h⟩ := bind_eq_some.mp h
    obtain ⟨_, _, ⟨⟩, h⟩ := bind_eq_some.mp h
    obtain ⟨_, _, ⟨⟩, h⟩ := bind_eq_some.mp h
    obtain ⟨_, _, ⟨⟩, h⟩ := bind_eq_some.mp h
    obtain ⟨found, t, hfound, h⟩ := bind_eq_some.mp h
    cases h
    exact .inr ⟨_, eats_ends (State.isLineEnd_skipLine _) hfound⟩

theorem eats_finishes {found : Bool} (hs : s.isLineEnd = true)
    (h : eats .endline s = (some found, s')) : s.Finishes s' := by
  left
  rw [State.skipTrivia_of_isLineEnd hs]
  exact eats_ends hs h

/-! ### One line -/

/-- A line that is read from `s` up to `t`: there is something on it, and its span is that of what is
read. -/
structure ReadUpTo (s : State) (l : Line) (t : State) : Prop where
  started : s.skipBlanks.isLineEnd = false
  extended : s.Extends t
  progress : s.cursor < t.cursor
  span : l.span = ⟨s.position, t.position⟩

/-- The first thing after the blanks is read, and then the rest. -/
theorem ReadUpTo.of_first {u : State} (hstarted : s.skipBlanks.isLineEnd = false)
    (hfirst : s.skipBlanks.Extends u) (hprogress : s.skipBlanks.cursor < u.cursor) (hrest : u.Extends t)
    (hspan : l.span = ⟨s.position, t.position⟩) : ReadUpTo s l t where
  started := hstarted
  extended := ((State.extends_skipWhile _ s).trans hfirst).trans hrest
  progress := calc
    s.cursor ≤ s.skipBlanks.cursor := (State.extends_skipWhile _ s).cursor_le
    _ < u.cursor := hprogress
    _ ≤ t.cursor := hrest.cursor_le
  span := hspan

/-- All lines start alike: the place is noted and the blanks are read. -/
theorem indented_eq_some {k : Position → Indent → Parser Line}
    (h : (do let start ← position; let indent ← indentation; k start indent) s = (some l, s')) :
    ∃ indent, k s.position indent s.skipBlanks = (some l, s') := ⟨_, h⟩

theorem eat_not_isLineEnd {kind : TokenKind} {t : Token} (hk : kind.isLineEnd = false)
    (h : eat kind s = (some t, s')) : s.isLineEnd = false := by
  rw [State.isLineEnd, (eat_eq_some.mp h).1]
  exact hk

theorem codeBlockLine_readUpTo (h : codeBlockLine g s = (some l, s')) :
    ∃ t, ReadUpTo s l t ∧ t.Finishes s' := by
  obtain ⟨indent, h⟩ := indented_eq_some h
  obtain ⟨star, u, hstar, h⟩ := bind_eq_some.mp h
  obtain ⟨block, t, hblock, h⟩ := bind_eq_some.mp h
  obtain ⟨span, _, ⟨⟩, h⟩ := bind_eq_some.mp h
  obtain ⟨_, _, hfinish, h⟩ := bind_eq_some.mp h
  cases h
  refine ⟨t, .of_first ?_ (extends_of_eq hstar) ?_ (extends_of_eq hblock) rfl,
    finishLine_finishes hfinish⟩
  · exact eat_not_isLineEnd rfl hstar
  · exact consumes_eat (by decide) _ _ hstar

theorem deleteLine_readUpTo (h : deleteLine g s = (some l, s')) :
    ∃ t, ReadUpTo s l t ∧ t.Finishes s' := by
  obtain ⟨indent, h⟩ := indented_eq_some h
  obtain ⟨keyword, u, hkeyword, h⟩ := bind_eq_some.mp h
  obtain ⟨_, v, hblanks, h⟩ := bind_eq_some.mp h
  obtain ⟨key, t, hkey, h⟩ := bind_eq_some.mp h
  obtain ⟨body, _, ⟨⟩, h⟩ := bind_eq_some.mp h
  obtain ⟨span, _, ⟨⟩, h⟩ := bind_eq_some.mp h
  obtain ⟨_, _, hend, h⟩ := bind_eq_some.mp h
  cases h
  have hkind : s.skipBlanks.kind = .word := by
    have hword := (eatWord_eq_some.mp hkeyword).1
    simp only [Token.isWord, Bool.and_eq_true, beq_iff_eq] at hword
    exact hword.1
  -- Between the keyword and the end of the key there are blanks only.
  have hrest : u.Extends t := (extends_of_eq hblanks).trans (extends_of_eq hkey)
  refine ⟨t, .of_first ?_ (extends_of_eq hkeyword) ?_ hrest rfl, lineEnd_finishes hend⟩
  · rw [State.isLineEnd, hkind]
    rfl
  · exact consumes_eatWord _ _ hkeyword

theorem objectKey_not_isLineEnd {key : ObjectKey} (h : objectKey g s = (some key, s')) :
    s.isLineEnd = false := by
  unfold objectKey at h
  rw [look_bind_run] at h
  -- A key is a word, or else it stands between backticks.
  have hkind : s.kind = .word ∨ s.kind = .backtick := by
    split at h
    · next hk => exact .inl hk
    · obtain ⟨_, _, hk, -⟩ := bind_eq_some.mp h
      exact .inr (beq_iff_eq.mp (require_eq_some.mp hk).1)
  unfold State.isLineEnd
  obtain hk | hk := hkind
  · rw [hk]; rfl
  · rw [hk]; rfl

theorem objectLine_readUpTo (h : objectLine g s = (some l, s')) :
    ∃ t, ReadUpTo s l t ∧ t.Finishes s' := by
  obtain ⟨indent, h⟩ := indented_eq_some h
  obtain ⟨bodyStart, _, ⟨⟩, h⟩ := bind_eq_some.mp h
  obtain ⟨key, u, hkey, h⟩ := bind_eq_some.mp h
  obtain ⟨_, _, hblanks, h⟩ := bind_eq_some.mp h
  obtain ⟨proto, _, hproto, h⟩ := bind_eq_some.mp h
  obtain ⟨tags, _, htags, h⟩ := bind_eq_some.mp h
  obtain ⟨_, _, hduplicates, h⟩ := bind_eq_some.mp h
  obtain ⟨value, t, hvalue, h⟩ := bind_eq_some.mp h
  obtain ⟨body, _, ⟨⟩, h⟩ := bind_eq_some.mp h
  obtain ⟨span, _, ⟨⟩, h⟩ := bind_eq_some.mp h
  obtain ⟨_, _, hend, h⟩ := bind_eq_some.mp h
  cases h
  -- What comes after the key may be empty, and it only reads on.
  have hrest : u.Extends t :=
    ((((extends_of_eq hblanks).trans (extends_of_eq hproto)).trans (extends_of_eq htags)).trans
      (extends_of_eq hduplicates)).trans (extends_of_eq hvalue)
  refine ⟨t, .of_first ?_ (extends_of_eq hkey) ?_ hrest rfl, lineEnd_finishes hend⟩
  · exact objectKey_not_isLineEnd hkey
  · exact objectKey_consumes g _ _ hkey

theorem statementLine_readUpTo (h : statementLine g s = (some l, s')) :
    ∃ t, ReadUpTo s l t ∧ t.Finishes s' := by
  obtain ⟨indent, h⟩ := indented_eq_some h
  obtain ⟨star, u, hstar, h⟩ := bind_eq_some.mp h
  obtain ⟨_, _, hblanks, h⟩ := bind_eq_some.mp h
  obtain ⟨_, _, hrequired, h⟩ := bind_eq_some.mp h
  obtain ⟨statement, t, hstatement, h⟩ := bind_eq_some.mp h
  obtain ⟨span, _, ⟨⟩, h⟩ := bind_eq_some.mp h
  obtain ⟨_, _, hfinish, h⟩ := bind_eq_some.mp h
  cases h
  have hrest : u.Extends t :=
    ((extends_of_eq hblanks).trans (extends_of_eq hrequired)).trans (extends_of_eq hstatement)
  refine ⟨t, .of_first ?_ (extends_of_eq hstar) ?_ hrest rfl, finishLine_finishes hfinish⟩
  · exact eat_not_isLineEnd rfl hstar
  · exact consumes_eat (by decide) _ _ hstar

theorem commentLine_readUpTo (h : commentLine s = (some l, s')) :
    ∃ t, ReadUpTo s l t ∧ t.Finishes s' := by
  obtain ⟨indent, h⟩ := indented_eq_some h
  obtain ⟨_, _, hrequired, h⟩ := bind_eq_some.mp h
  obtain ⟨hcomment, rfl⟩ := requireState_eq_some.mp hrequired
  obtain ⟨_, u, hsigns, h⟩ := bind_eq_some.mp h
  obtain ⟨text, _, ⟨⟩, h⟩ := bind_eq_some.mp h
  obtain ⟨_, t, hline, h⟩ := bind_eq_some.mp h
  obtain ⟨span, _, ⟨⟩, h⟩ := bind_eq_some.mp h
  obtain ⟨found, _, hend, h⟩ := bind_eq_some.mp h
  cases h
  have hkind : s.skipBlanks.kind = .slash := by
    simp only [State.atLineComment, Bool.and_eq_true, beq_iff_eq] at hcomment
    exact hcomment.1
  -- All up to the end of the line is skipped, so the line ends there.
  have ht : t.isLineEnd = true := by
    cases hline
    exact State.isLineEnd_skipLine u
  refine ⟨t, .of_first ?_ (extends_of_eq hsigns) ?_ (extends_of_eq hline) rfl, eats_finishes ht hend⟩
  · rw [State.isLineEnd, hkind]
    rfl
  · have hrest := State.rest_ne_nil_of_kind_eq hkind (by decide)
    exact consumes_advanceBy hrest (by decide) _ _ hsigns

theorem starOrSplice_eq_some (g : Nested) (c : Content) (s : State) :
    ∃ c' s', starOrSplice g c s = (some c', s') := by
  unfold starOrSplice
  rw [look_bind_run]
  rcases h : splice g s with ⟨_ | part, t⟩
  · have hnone := attempt_eq_some.mpr (.inr ⟨rfl, congrArg Prod.fst h, rfl⟩)
    exact ⟨_, _, bind_eq_some.mpr ⟨none, s, hnone, rfl⟩⟩
  · have hsome := attempt_eq_some.mpr (.inl ⟨part, rfl, h⟩)
    exact ⟨_, _, bind_eq_some.mpr ⟨some part, t, hsome, rfl⟩⟩

/-- One token of a text is always read, and the text is done only where the line ends. -/
theorem textRound_eq_some (g : Nested) (c : Content) (s : State) :
    (s.isLineEnd = true ∧ ∃ parts, textRound g c s = (some (.done parts), s)) ∨
      ∃ c' s', textRound g c s = (some (.again c'), s') := by
  unfold textRound
  by_cases hend : s.isLineEnd = true
  · exact .inl ⟨hend, c.finish s.position, by rw [state_bind_run, if_pos hend]; rfl⟩
  · -- Whatever the token is, the round goes on.
    right
    rw [state_bind_run, if_neg hend]
    split
    · rw [change_bind_run, look_bind_run]
      split
      · exact ⟨_, _, rfl⟩
      · exact ⟨_, _, rfl⟩
    split
    · obtain ⟨c', s', h⟩ := starOrSplice_eq_some g c s
      exact ⟨c', s', bind_eq_some.mpr ⟨c', s', h, rfl⟩⟩
    · exact ⟨_, _, rfl⟩

/-- The words of a text go up to the end of the line, whatever they are. -/
theorem textContent_eq_some (g : Nested) (s : State) :
    ∃ parts t, textContent g s = (some parts, t) ∧ t.isLineEnd = true := by
  refine loop_succeeds (textRound_advances g) (fun c s => ?_) (fun c s parts s' hround => ?_) .empty s
  · -- Every round succeeds; the one that ends the loop is at the end of the line.
    obtain ⟨-, parts, h⟩ | ⟨c', s', h⟩ := textRound_eq_some g c s
    · exact ⟨_, _, h⟩
    · exact ⟨_, _, h⟩
  · obtain ⟨hend, _, h⟩ | ⟨c', _, h⟩ := textRound_eq_some g c s
    · rw [hround] at h
      cases h
      exact hend
    · rw [hround] at h
      cases h

theorem textLine_readUpTo (h : textLine g s = (some l, s')) :
    ∃ t, ReadUpTo s l t ∧ t.Finishes s' := by
  obtain ⟨indent, h⟩ := indented_eq_some h
  obtain ⟨_, _, hrequired, h⟩ := bind_eq_some.mp h
  obtain ⟨hstarted, rfl⟩ := requireState_eq_some.mp hrequired
  obtain ⟨parts, t, hparts, h⟩ := bind_eq_some.mp h
  obtain ⟨span, _, ⟨⟩, h⟩ := bind_eq_some.mp h
  obtain ⟨found, _, hend, h⟩ := bind_eq_some.mp h
  cases h
  have hstarted : s.skipBlanks.isLineEnd = false := by simpa using hstarted
  -- Reading the words has only one outcome, and that is at the end of the line.
  have ht : t.isLineEnd = true := by
    obtain ⟨_, t', hcontent, ht'⟩ := textContent_eq_some g s.skipBlanks
    rw [hparts] at hcontent
    cases hcontent
    exact ht'
  refine ⟨t, .of_first hstarted (extends_of_eq hparts) ?_ (.refl t) rfl, eats_finishes ht hend⟩
  exact (textRound_consumes g hstarted).repeated _ _ hparts

/-- **What one line does,** whichever of the six kinds it is of. -/
theorem line_readUpTo (h : line g s = (some l, s')) : ∃ t, ReadUpTo s l t ∧ t.Finishes s' := by
  have h := rewind_eq_some.mp h
  obtain h | ⟨-, h⟩ := orElse_eq_some.mp h
  · exact codeBlockLine_readUpTo h
  obtain h | ⟨-, h⟩ := orElse_eq_some.mp h
  · exact deleteLine_readUpTo h
  obtain h | ⟨-, h⟩ := orElse_eq_some.mp h
  · exact objectLine_readUpTo h
  obtain h | ⟨-, h⟩ := orElse_eq_some.mp h
  · exact statementLine_readUpTo h
  obtain h | ⟨-, h⟩ := orElse_eq_some.mp h
  · exact commentLine_readUpTo h
  · exact textLine_readUpTo h

theorem textLine_eq_some (h : s.skipBlanks.isLineEnd = false) :
    ∃ l s', textLine g s = (some l, s') := by
  obtain ⟨parts, t, hparts, -⟩ := textContent_eq_some g s.skipBlanks
  have hstarted : requireState (fun s => !s.isLineEnd) s.skipBlanks = (some (), s.skipBlanks) :=
    requireState_eq_some.mpr ⟨by rw [h]; rfl, rfl⟩
  exact ⟨_, _, bind_eq_some.mpr ⟨_, _, rfl, bind_eq_some.mpr ⟨_, s.skipBlanks, rfl,
    bind_eq_some.mpr ⟨_, _, hstarted, bind_eq_some.mpr ⟨parts, t, hparts,
    bind_eq_some.mpr ⟨_, _, rfl, bind_eq_some.mpr ⟨_, _, eats_run .endline t, rfl⟩⟩⟩⟩⟩⟩⟩

/-- **Only a blank line is none:** anything else is at least a text. -/
theorem isLineEnd_of_line_fails (h : line g s = (none, s')) :
    s.skipBlanks.isLineEnd = true ∧ s' = s := by
  obtain ⟨hnone, rfl⟩ := rewind_eq_none.mp h
  refine ⟨?_, rfl⟩
  by_contra hstarted
  -- All six kinds of lines fail, a text as the last of them.
  obtain ⟨-, hnone⟩ := orElse_eq_none hnone
  obtain ⟨-, hnone⟩ := orElse_eq_none hnone
  obtain ⟨-, hnone⟩ := orElse_eq_none hnone
  obtain ⟨-, hnone⟩ := orElse_eq_none hnone
  obtain ⟨-, hnone⟩ := orElse_eq_none hnone
  obtain ⟨l, t, htext⟩ := textLine_eq_some (g := g) (eq_false_of_ne_true hstarted)
  rw [htext] at hnone
  cases hnone

/-! ### All lines -/

/-- On a blank line a token is passed over, and what is left of the line is blank. -/
theorem blank_step (hs : s.Placed) (heof : ¬s.isEof = true) (hblank : s.skipBlanks.isLineEnd = true) :
    s.advance.AtLineStart ∧
      ∀ reports ls, Arranges reports s.advance.rest ls → Arranges reports s.rest ls := by
  rcases hr : s.rest with _ | ⟨t, ts⟩
  · exact absurd hr (State.rest_ne_nil_of_not_isEof heof)
  have hadvance : s.advance.rest = ts := by unfold State.advance; rw [hr]
  by_cases ht : t.kind.isBlank = true
  · -- The blanks after this one end where all of them do.
    have hrest : s.advance.skipBlanks.rest = s.skipBlanks.rest := by
      simp [State.skipBlanks, State.rest_skipWhile, hadvance, hr, ht]
    refine ⟨.inr ?_, fun reports ls h => .blank (.inl ht) (hadvance ▸ h)⟩
    have hfinish : s.advance.skipBlanks.finish = s.skipBlanks.finish := (State.extends_advance s).finish
    simpa only [State.isLineEnd, State.kind, State.current, hrest, hfinish] using hblank
  · -- There is no blank before the end of the line, so this is it.
    have hkind : s.skipBlanks.kind = t.kind := by
      simp [State.skipBlanks, State.kind, State.current, State.rest_skipWhile, hr, ht]
    have hend : s.Ends s.advance := by
      have hcurrent : s.kind = t.kind := by simp [State.kind, State.current, hr]
      have hfile : t.kind ≠ .endfile := hs.kind t (by simp [hr])
      rw [State.isLineEnd, hkind] at hblank
      refine .inl ⟨hcurrent.trans ?_, rfl⟩
      revert hblank hfile
      cases t.kind <;> decide
    exact ⟨hend.atLineStart hs, fun reports ls h => hr ▸ hend.arranges h⟩

/-- **One round.** Whatever comes after the line or the token that is read, the tokens before it are
arranged too. -/
theorem moduleRound_arranges {acc next : List Line} (hs : s.Placed) (hstart : s.AtLineStart)
    (h : moduleRound acc s = (some (.again next), s')) :
    s'.AtLineStart ∧ ∃ new : List Line, next = new.reverse ++ acc ∧
      ∀ reports ls, (∀ d ∈ s'.reports, d ∈ reports) → Arranges reports s'.rest ls →
        Arranges reports s.rest (new ++ ls) := by
  have heof : ¬s.isEof = true := by
    intro heof
    rw [moduleRound_of_isEof heof] at h
    cases h
  rw [moduleRound_of_not_isEof heof] at h
  rcases hline : line outermost s with ⟨_ | l, t⟩
  · -- No line: nothing has been read, so one token is passed over.
    obtain ⟨hblank, rfl⟩ := isLineEnd_of_line_fails hline
    rw [hline, if_pos (beq_self_eq_true _)] at h
    cases h
    obtain ⟨hnext, harranges⟩ := blank_step hs heof hblank
    exact ⟨hnext, [], rfl, fun reports ls _ => harranges reports ls⟩
  · -- A line: what it is read from, its trail and what is reported after it come off the tokens.
    have hlt : s.cursor < t.cursor := line_consumes outermost _ _ hline
    rw [hline, if_neg (by simpa using Nat.ne_of_gt hlt)] at h
    cases h
    obtain ⟨u, hread, hfinishes⟩ := line_readUpTo hline
    have hu := hs.extended hread.extended
    refine ⟨hfinishes.atLineStart hu, [l], rfl, fun reports ls hreports hlater => ?_⟩
    obtain ⟨read, hrest, hlength, hpath⟩ := hs.path_read hread.extended
    obtain ⟨trail, left, ts, heq, htrail, hleft, hlater⟩ := hfinishes.arranges hu hreports hlater
    rw [hrest, heq]
    have hspan := hread.span
    refine .line ?_ (by rw [hspan]; exact hpath) ?_ htrail hleft hlater
    · rintro rfl
      have hprogress := hread.progress
      rw [List.length_nil] at hlength
      omega
    · -- There is something on the line, so it is not the rest of a blank one.
      rw [hspan]
      refine hstart.resolve_right fun hblank => ?_
      rw [hread.started] at hblank
      cases hblank

/-- **All rounds.** The lines that are still to come are arranged among the tokens that are left. -/
theorem loop_arranges {acc ls : List Line} (hs : s.Placed) (hstart : s.AtLineStart)
    (h : loop moduleRound acc s = (some ls, s')) :
    ∃ new, ls = acc.reverse ++ new ∧ Arranges s'.reports s.rest new := by
  -- By induction on the rounds. The reports are those at the end: none is taken back on the way there.
  fun_induction loop moduleRound acc s with
  | case1 => cases h
  | case2 acc s result t hround =>
    cases h
    by_cases heof : s.isEof = true
    · rw [moduleRound_of_isEof heof] at hround
      cases hround
      exact ⟨[], (List.append_nil _).symm, State.rest_eq_nil hs heof ▸ .nil⟩
    · rw [moduleRound_of_not_isEof heof] at hround
      cases hround
  | case3 acc s next t hround _ ih =>
    obtain ⟨hnext, new, rfl, harranges⟩ := moduleRound_arranges hs hstart hround
    obtain ⟨later, rfl, hlater⟩ := ih (hs.extended (extends_of_eq hround)) hnext h
    have hreports : t.reports <:+ s'.reports := by
      have hloop := extends_loop moduleRound (new.reverse ++ acc) t
      rw [h] at hloop
      exact hloop.reports
    refine ⟨new ++ later, by simp, harranges _ _ (fun d hd => hreports.subset hd) hlater⟩
  | case4 => cases h

end Grammar

/-- **The lines of a story lie in its text one after the other, and nothing is lost between them.** Each
line starts a line of the text and ends before the next one starts. A token that no line covers is a
blank, the end of a line or of the file, or it belongs to a comment outside of all lines, or it is
reported as unexpected at the end of its line. -/
theorem parseModule_accounts (text path : String) (indentSize : Nat) :
    let result := parseModule text path indentSize
    let tokens := splitComments (scan text)
    (result.module.lines.Pairwise fun l l' => l.span.stop.offset ≤ l'.span.start.offset) ∧
      (∀ l ∈ result.module.lines,
        l.span.start.column = 0 ∧ l.span.start.offset < l.span.stop.offset) ∧
      ∀ t ∈ tokens, t.Accounted result.diagnostics result.module.lines tokens := by
  intro result tokens
  let start := State.ofText text indentSize
  have hplaced : start.Placed := State.placed_ofText text indentSize
  have hstart : start.AtLineStart := by
    left
    rw [State.position_ofText]
    rfl
  obtain ⟨htokens, -, -⟩ := State.ofText_spec text indentSize
  obtain ⟨ls, s', hlines, -⟩ := lines_eq_some start
  obtain ⟨new, hnew, harranges⟩ := loop_arranges hplaced hstart hlines
  have hresult : result.module.lines = new := by
    change (lines start).1.getD [] = new
    rw [hlines]
    exact hnew
  have hreports : ∀ d ∈ s'.reports, d ∈ result.diagnostics := by
    intro d hd
    refine State.mem_diagnostics.mpr ?_
    change d ∈ (lines start).2.reports
    rw [hlines]
    exact hd
  rw [hresult]
  -- What the arrangement says of the tokens that are read carries over to all of them, with the end of
  -- the file as the last one.
  refine ⟨harranges.ordered hplaced.path, harranges.line_start hplaced.nonempty, fun t ht => ?_⟩
  change t ∈ splitComments (scan text) at ht
  rw [htokens, List.mem_append, List.mem_singleton] at ht
  obtain ht | rfl := ht
  · have haccounted := harranges.accounted hplaced.path hplaced.nonempty t ht
    change t.Accounted _ _ (splitComments (scan text))
    rw [htokens]
    exact haccounted.append_endfile hreports
  · exact .blank (.inr rfl)

end Story
