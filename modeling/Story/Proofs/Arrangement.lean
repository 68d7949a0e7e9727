import Mathlib.Data.List.TakeWhile
import Story.Proofs.Places

/-!
# How the lines of a story lie in its text

A line of the syntax tree is not a line of the text: code goes on over several of them, comments are
passed over, and what should not be there is reported and left out. This file says how lines can lie
among the tokens of a text such that nothing gets lost between them.

* `Comment`, `Trailing` — comments, and what may stand between a line and the end of the text line;
  passing over blanks and comments passes over a trail (`State.skipTrivia_trail`);
* `Arranges` — blanks, then a line, which starts a line of the text, then blanks and comments, then what
  is reported, and so on;
* `Arranges.ordered`, `Arranges.line_start`, `Arranges.accounted` — what follows for the spans of the
  lines and for each token.
-/

namespace Story

/-! ### Comments -/

/-- No star with a slash after it. -/
def Unclosed (ts : List Token) : Prop := ts.IsChain fun t u => ¬(t.kind = .star ∧ u.kind = .slash)

/-- **Comments.** `Comment ts after`: the tokens `ts` are a comment, if `after` comes after them. -/
inductive Comment : List Token → List Token → Prop where
  /-- Two slashes and the rest of the line. -/
  | toLineEnd {a b : Token} {body after : List Token} (ha : a.kind = .slash) (hb : b.kind = .slash)
      (hbody : ∀ t ∈ body, t.kind.isLineEnd = false)
      (hafter : ∀ t ∈ after.head?, t.kind.isLineEnd = true) : Comment (a :: b :: body) after
  /-- A slash and a star, up to the first star with a slash. -/
  | closed {a b c d : Token} {body after : List Token} (ha : a.kind = .slash) (hb : b.kind = .star)
      (hbody : Unclosed (body ++ [c])) (hc : c.kind = .star) (hd : d.kind = .slash) :
      Comment (a :: b :: (body ++ [c, d])) after
  /-- A slash and a star, with no end but the end of the file. -/
  | unclosed {a b : Token} {body after : List Token} (ha : a.kind = .slash) (hb : b.kind = .star)
      (hbody : Unclosed body) (hafter : ∀ t ∈ after, t.kind = .endfile) : Comment (a :: b :: body) after

/-- A comment is one also before the end of the file. -/
theorem Comment.append_endfile {ts after : List Token} (h : Comment ts after) (p : Position) :
    Comment ts (after ++ [.endfile p]) := by
  cases h with
  | toLineEnd ha hb hbody hafter =>
    -- With nothing after it, the comment is now followed by the end of the file.
    refine .toLineEnd ha hb hbody ?_
    cases after with
    | nil => exact fun t ht => Option.mem_some.mp ht ▸ rfl
    | cons => exact hafter
  | closed ha hb hbody hc hd => exact .closed ha hb hbody hc hd
  | unclosed ha hb hbody hafter =>
    refine .unclosed ha hb hbody fun t ht => ?_
    obtain ht | ht := List.mem_append.mp ht
    · exact hafter t ht
    · exact List.mem_singleton.mp ht ▸ rfl

/-- **Between a line and the end of the text line:** blanks and comments. -/
inductive Trailing : List Token → List Token → Prop where
  | nil {after : List Token} : Trailing [] after
  | blank {t : Token} {ts after : List Token} (ht : t.kind.isBlank = true) (h : Trailing ts after) :
      Trailing (t :: ts) after
  | comment {ts ts' after : List Token} (hts : Comment ts (ts' ++ after)) (h : Trailing ts' after) :
      Trailing (ts ++ ts') after

theorem Trailing.mem {ts after : List Token} (h : Trailing ts after) {t : Token} (ht : t ∈ ts) :
    t.kind.isBlank = true ∨ ∃ before comment later,
      ts = before ++ comment ++ later ∧ Comment comment (later ++ after) ∧ t ∈ comment := by
  induction h with
  | nil => cases ht
  -- The comment is found in what follows, with one blank more before it.
  | @blank u ts after hu _ ih =>
    obtain rfl | ht := List.mem_cons.mp ht
    · exact .inl hu
    · obtain hblank | ⟨before, comment, later, rfl, hcomment, hmem⟩ := ih ht
      · exact .inl hblank
      · exact .inr ⟨u :: before, comment, later, rfl, hcomment, hmem⟩
  | @comment us ts after hus _ ih =>
    obtain ht | ht := List.mem_append.mp ht
    · exact .inr ⟨[], us, ts, rfl, hus, ht⟩
    · obtain hblank | ⟨before, comment, later, rfl, hcomment, hmem⟩ := ih ht
      · exact .inl hblank
      · exact .inr ⟨us ++ before, comment, later, by simp, hcomment, hmem⟩

namespace State

theorem unclosed_of_commentLength {ts : List Token} (h : commentLength ts = none) : Unclosed ts := by
  fun_induction commentLength ts with
  | case1 => exact .nil
  | case2 t => exact .singleton t
  | case3 => cases h
  | case4 t u ts hne ih =>
    have hne : ¬(t.kind = .star ∧ u.kind = .slash) := by simpa using hne
    exact .cons_cons hne (ih (Option.map_eq_none_iff.mp h))

theorem commentLength_eq_some {ts : List Token} {n : Nat} (h : commentLength ts = some n) :
    ∃ body c d after, ts = body ++ c :: d :: after ∧ body.length = n ∧ Unclosed (body ++ [c]) ∧
      c.kind = .star ∧ d.kind = .slash := by
  fun_induction commentLength ts generalizing n with
  | case1 => cases h
  | case2 => cases h
  | case3 t u ts hclosed =>
    cases h
    have hclosed : t.kind = .star ∧ u.kind = .slash := by simpa using hclosed
    exact ⟨[], t, u, ts, rfl, rfl, .singleton t, hclosed⟩
  | case4 t u ts hne ih =>
    have hne : ¬(t.kind = .star ∧ u.kind = .slash) := by simpa using hne
    obtain ⟨m, hm, rfl⟩ := Option.map_eq_some_iff.mp h
    obtain ⟨body, c, d, after, heq, rfl, hbody, hc, hd⟩ := ih hm
    refine ⟨t :: body, c, d, after, by rw [heq]; rfl, rfl, ?_, hc, hd⟩
    -- The second token is the first of the body, or the star that closes the comment.
    cases body with
    | nil =>
      obtain ⟨rfl, -⟩ := List.cons.inj heq
      exact .cons_cons hne hbody
    | cons b body =>
      obtain ⟨rfl, -⟩ := List.cons.inj heq
      exact .cons_cons hne hbody

theorem rest_advanceBy (n : Nat) (s : State) : (advanceBy n s).rest = s.rest.drop n := by
  induction n generalizing s with
  | zero => rfl
  | succ n ih =>
    rw [advanceBy, ih]
    unfold advance
    split
    · next h => simp [h]
    · next h => simp [h]

theorem rest_skipWhile (p : Token → Bool) (s : State) : (s.skipWhile p).rest = s.rest.dropWhile p := rfl

/-- A line comment goes up to the end of the line. -/
theorem skipLine_comment {s : State} {a b : Token} {ts : List Token} (hs : s.rest = a :: b :: ts)
    (ha : a.kind = .slash) (hb : b.kind = .slash) :
    ∃ comment, s.rest = comment ++ s.skipLine.rest ∧ Comment comment s.skipLine.rest := by
  have hslash : (!TokenKind.slash.isLineEnd) = true := rfl
  -- The two slashes are no end of a line, so they are passed over with the rest of it.
  refine ⟨a :: b :: ts.takeWhile fun t => !t.kind.isLineEnd, ?_, ?_⟩
  · simp [skipLine, rest_skipWhile, hs, ha, hb, hslash]
  · refine .toLineEnd ha hb (fun t ht => ?_) fun t ht => ?_
    · simpa using List.mem_takeWhile_imp ht
    · have hnot := List.head?_dropWhile_not (fun t : Token => !t.kind.isLineEnd) s.rest
      rw [← rest_skipWhile, ← skipLine, ht] at hnot
      simpa using hnot

/-- A block comment goes up to its closing signs or, without them, to the end of the file. -/
theorem skipComment_comment {s : State} {a b : Token} {ts : List Token} (hs : s.rest = a :: b :: ts)
    (ha : a.kind = .slash) (hb : b.kind = .star) :
    ∃ comment, s.rest = comment ++ s.skipComment.rest ∧ Comment comment s.skipComment.rest := by
  have hinside : (advanceBy 2 s).rest = ts := by rw [rest_advanceBy, hs]; rfl
  unfold skipComment
  dsimp only
  rw [hinside]
  split
  · -- The closing signs are found: the comment ends behind them.
    next n hn =>
    obtain ⟨body, c, d, after, rfl, rfl, hbody, hc, hd⟩ := commentLength_eq_some hn
    have hafter : (advanceBy (body.length + 2) (advanceBy 2 s)).rest = after := by
      rw [rest_advanceBy, hinside]
      simp
    rw [hafter, hs]
    exact ⟨a :: b :: (body ++ [c, d]), by simp, .closed ha hb hbody hc hd⟩
  · -- They are missing: the comment takes all tokens that are left.
    next hn =>
    have hafter : (advanceBy ts.length (advanceBy 2 s)).rest = [] := by
      rw [rest_advanceBy, hinside, List.drop_length]
    change ∃ comment, s.rest = comment ++ (advanceBy ts.length (advanceBy 2 s)).rest ∧ Comment comment
      (advanceBy ts.length (advanceBy 2 s)).rest
    rw [hafter, hs]
    exact ⟨a :: b :: ts, by simp, .unclosed ha hb (unclosed_of_commentLength hn) nofun⟩

/-- A sign that comes next is one of those that are left. -/
theorem rest_eq_of_peek {s : State} {t : Token} {ts : List Token} {kind : TokenKind}
    (hs : s.rest = t :: ts) (h : (s.peek 1).kind = kind) (hk : kind ≠ .endfile) :
    ∃ u us, s.rest = t :: u :: us ∧ u.kind = kind := by
  unfold peek at h
  cases ts with
  -- Nothing is left after the first token, so what comes next would be the end of the file.
  | nil =>
    rw [hs] at h
    exact absurd h.symm hk
  | cons u us =>
    rw [hs] at h
    exact ⟨u, us, hs, h⟩

/-- **What is passed over at the end of a line is a trail.** -/
theorem skipTrivia_trail (s : State) :
    ∃ trail, s.rest = trail ++ (s.skipTrivia false).rest ∧
      Trailing trail (s.skipTrivia false).rest := by
  -- By induction on what is passed over: a blank, a comment of either kind, or nothing.
  generalize hmultiline : false = multiline
  fun_induction skipTrivia multiline s with
  | case1 => exact ⟨[], rfl, .nil⟩
  | case2 s t ts hs hblank ih =>
    obtain ⟨trail, heq, htrail⟩ := ih
    have hts : s.advance.rest = ts := by unfold advance; rw [hs]
    have hblank : t.kind.isBlank = true := by simpa [← hmultiline] using hblank
    exact ⟨t :: trail, by rw [hs, ← hts, heq]; rfl, .blank hblank htrail⟩
  | case3 s t ts hs _ hslash hnext ih =>
    obtain ⟨u, us, hs, hu⟩ := rest_eq_of_peek hs (beq_iff_eq.mp hnext) (by decide)
    obtain ⟨comment, hrest, hcomment⟩ := skipLine_comment hs hslash hu
    obtain ⟨trail, heq, htrail⟩ := ih
    exact ⟨comment ++ trail, by rw [hrest, heq, List.append_assoc], .comment (heq ▸ hcomment) htrail⟩
  | case4 s t ts hs _ hslash _ hnext ih =>
    obtain ⟨u, us, hs, hu⟩ := rest_eq_of_peek hs (beq_iff_eq.mp hnext) (by decide)
    obtain ⟨comment, hrest, hcomment⟩ := skipComment_comment hs hslash hu
    obtain ⟨trail, heq, htrail⟩ := ih
    exact ⟨comment ++ trail, by rw [hrest, heq, List.append_assoc], .comment (heq ▸ hcomment) htrail⟩
  | case5 => exact ⟨[], rfl, .nil⟩
  | case6 => exact ⟨[], rfl, .nil⟩

/-- At the end of a line there is nothing to pass over. -/
theorem skipTrivia_of_isLineEnd {s : State} (h : s.isLineEnd = true) : s.skipTrivia false = s := by
  rw [skipTrivia]
  split
  · rfl
  · next t ts hs =>
    have ht : t.kind.isLineEnd = true := by simpa [isLineEnd, kind, current, hs] using h
    have hblank : t.kind.isBlank = false ∧ t.kind ≠ .slash := by
      revert ht
      cases t.kind <;> decide
    simp [hblank.1, hblank.2]

end State

/-! ### How lines lie among tokens -/

/-- **Lines among tokens.** `Arranges reports ts ls`: the tokens `ts` are those of the lines `ls`, with
blanks and ends of lines before them, blanks and comments after each, and after these what `reports`
tells about. -/
inductive Arranges (reports : List Diagnostic) : List Token → List Line → Prop where
  | nil : Arranges reports [] []
  | blank {t : Token} {ts : List Token} {ls : List Line}
      (ht : t.kind.isBlank = true ∨ t.kind.isLineEnd = true) (h : Arranges reports ts ls) :
      Arranges reports (t :: ts) ls
  | line {l : Line} {read trail left ts : List Token} {ls : List Line} (hread : read ≠ [])
      (hpath : Token.Path l.span.start read l.span.stop) (hcolumn : l.span.start.column = 0)
      (htrail : Trailing trail (left ++ ts))
      (hleft : left = [] ∨ ∃ d ∈ reports, d.code = some Message.unexpectedRest.code ∧
        Token.Path d.span.start left d.span.stop)
      (h : Arranges reports ts ls) : Arranges reports (read ++ (trail ++ (left ++ ts))) (l :: ls)

/-- **Where a token of a story is.** A comment is one only outside of all lines; in a line of text, two
slashes are text. -/
inductive Token.Accounted (reports : List Diagnostic) (ls : List Line) (ts : List Token) (t : Token) :
    Prop where
  /-- In a line. -/
  | inLine {l : Line} (hl : l ∈ ls) (h : l.span.Covers t)
  /-- Between lines, with nothing to tell. -/
  | blank (h : t.kind.isBlank = true ∨ t.kind.isLineEnd = true)
  /-- In a comment. -/
  | inComment {before comment after : List Token} (hts : ts = before ++ comment ++ after)
      (h : Comment comment after) (ht : t ∈ comment)
      (houtside : ∀ u ∈ comment, ∀ l ∈ ls, ¬l.span.Covers u)
  /-- In what is reported as unexpected at the end of a line. -/
  | reported {d : Diagnostic} (hd : d ∈ reports) (hcode : d.code = some Message.unexpectedRest.code)
      (h : d.span.Covers t)

namespace Token

variable {reports : List Diagnostic} {ls : List Line} {l : Line} {ts : List Token} {p q : Position}

/-- A token that is not empty and comes after a stretch of text is not in it. -/
theorem Path.not_covers_before {t : Token} {span : Span} (h : Path p ts q) (ht : t ∈ ts)
    (htext : t.text ≠ "") (hspan : span.stop.offset ≤ p.offset) : ¬span.Covers t := by
  intro hcovers
  have hstart : p.offset ≤ t.start.offset := (h.covers ht).1
  have hlt : t.start.offset < t.stop.offset := offset_lt htext
  have hstop : t.stop.offset ≤ span.stop.offset := hcovers.2
  omega

/-- Nor is it, if it comes before. -/
theorem Path.not_covers_after {t : Token} {span : Span} (h : Path p ts q) (ht : t ∈ ts)
    (htext : t.text ≠ "") (hspan : q.offset ≤ span.start.offset) : ¬span.Covers t := by
  intro hcovers
  have hstop : t.stop.offset ≤ q.offset := (h.covers ht).2
  have hlt : t.start.offset < t.stop.offset := offset_lt htext
  have hstart : span.start.offset ≤ t.start.offset := hcovers.1
  omega

/-- Where a line and what belongs to it lie on the way. -/
theorem Path.split {start stop : Position} {read trail left : List Token} (h : Path start read stop)
    (hread : read ≠ []) (hpath : Path p (read ++ (trail ++ (left ++ ts))) q) :
    p = start ∧ ∃ m m', Path stop trail m ∧ Path m left m' ∧ Path m' ts q := by
  obtain ⟨m, hm, hpath⟩ := path_append.mp hpath
  -- Tokens lie in one place only.
  obtain rfl := hm.start_eq h hread
  obtain rfl := hm.stop_eq h
  obtain ⟨m', htrail, hpath⟩ := path_append.mp hpath
  obtain ⟨m'', hleft, hpath⟩ := path_append.mp hpath
  exact ⟨rfl, m', m'', htrail, hleft, hpath⟩

/-- Tokens before do not matter to a token that is accounted for. -/
theorem Accounted.prepend {t : Token} (h : t.Accounted reports ls ts) (us : List Token) :
    t.Accounted reports ls (us ++ ts) := by
  cases h with
  | inLine hl h => exact .inLine hl h
  | blank h => exact .blank h
  | @inComment before comment after hts h ht houtside =>
    have hus : us ++ ts = us ++ before ++ comment ++ after := by rw [hts]; simp
    exact .inComment hus h ht houtside
  | reported hd hcode h => exact .reported hd hcode h

/-- Nor does a line before. -/
theorem Accounted.line_before {t : Token} (h : t.Accounted reports ls ts) (hpath : Path p ts q)
    (htext : ∀ u ∈ ts, u.text ≠ "") (hl : l.span.stop.offset ≤ p.offset) :
    t.Accounted reports (l :: ls) ts := by
  cases h with
  | inLine hl h => exact .inLine (List.mem_cons_of_mem _ hl) h
  | blank h => exact .blank h
  | @inComment first comment after hts h ht houtside =>
    refine .inComment hts h ht fun u hu l' hl' => ?_
    subst hts
    -- The new line ends before the tokens start, so it covers none of the comment.
    obtain rfl | hl' := List.mem_cons.mp hl'
    · have hmem : u ∈ first ++ comment ++ after := by simp [hu]
      exact hpath.not_covers_before hmem (htext u hmem) hl
    · exact houtside u hu l' hl'
  | reported hd hcode h => exact .reported hd hcode h

/-- Nor does the end of the file. -/
theorem Accounted.append_endfile {t : Token} {reports' : List Diagnostic}
    (h : t.Accounted reports ls ts) (hreports : ∀ d ∈ reports, d ∈ reports') : t.Accounted reports' ls (ts ++ [.endfile p]) := by
  cases h with
  | inLine hl h => exact .inLine hl h
  | blank h => exact .blank h
  | inComment hts h ht houtside =>
    exact .inComment (by rw [hts, List.append_assoc]) (h.append_endfile p) ht houtside
  | reported hd hcode h => exact .reported (hreports _ hd) hcode h

end Token

namespace Arranges

variable {reports : List Diagnostic} {ls : List Line} {ts : List Token} {p q : Position}

/-- The lines lie among the tokens. -/
theorem start_le (h : Arranges reports ts ls) (hpath : Token.Path p ts q) :
    ∀ l ∈ ls, p.offset ≤ l.span.start.offset := by
  induction h generalizing p with
  | nil => exact List.forall_mem_nil _
  | @blank t ts ls ht _ ih =>
    intro l hl
    obtain ⟨rfl, hpath⟩ := hpath
    have hstop : t.start.offset ≤ t.stop.offset := by rw [Token.offset_stop]; exact Nat.le_add_right _ _
    exact hstop.trans (ih hpath l hl)
  | @line l read trail left ts ls hread hline _ _ _ _ ih =>
    -- The line, its trail and what is left on its line follow each other before the next one.
    obtain ⟨rfl, m, m', htrail, hleft, hlater⟩ := hline.split hread hpath
    intro l' hl'
    obtain rfl | hl' := List.mem_cons.mp hl'
    · exact Nat.le_refl _
    · calc
        l.span.start.offset ≤ l.span.stop.offset := hline.offset_le
        _ ≤ m.offset := htrail.offset_le
        _ ≤ m'.offset := hleft.offset_le
        _ ≤ l'.span.start.offset := ih hlater l' hl'

/-- A line comes after those before it. -/
theorem ordered (h : Arranges reports ts ls) (hpath : Token.Path p ts q) :
    ls.Pairwise fun l l' => l.span.stop.offset ≤ l'.span.start.offset := by
  induction h generalizing p with
  | nil => exact .nil
  | blank _ _ ih => exact ih hpath.2
  | @line l read trail left ts ls hread hline _ _ _ h ih =>
    obtain ⟨-, m, m', htrail, hleft, hlater⟩ := hline.split hread hpath
    refine .cons (fun l' hl' => ?_) (ih hlater)
    calc
      l.span.stop.offset ≤ m.offset := htrail.offset_le
      _ ≤ m'.offset := hleft.offset_le
      _ ≤ l'.span.start.offset := h.start_le hlater l' hl'

/-- A line starts a line of the text, and is not empty. -/
theorem line_start (h : Arranges reports ts ls) (htext : ∀ t ∈ ts, t.text ≠ "") :
    ∀ l ∈ ls, l.span.start.column = 0 ∧ l.span.start.offset < l.span.stop.offset := by
  induction h with
  | nil => exact List.forall_mem_nil _
  | blank _ _ ih => exact ih fun t ht => htext t (List.mem_cons_of_mem _ ht)
  | @line l read trail left ts ls hread hline hcolumn _ _ _ ih =>
    intro l' hl'
    obtain rfl | hl' := List.mem_cons.mp hl'
    · -- What is read is not empty, and neither are its tokens.
      obtain ⟨t, ht⟩ := List.exists_mem_of_ne_nil read hread
      obtain ⟨hstart, hstop⟩ := hline.covers ht
      have hlt := Token.offset_lt (htext t (List.mem_append_left _ ht))
      exact ⟨hcolumn, (hstart.trans_lt hlt).trans_le hstop⟩
    · exact ih (fun t ht => htext t (by simp [ht])) l' hl'

/-- **Nothing gets lost:** every token among which lines are arranged is accounted for. -/
theorem accounted (h : Arranges reports ts ls) (hpath : Token.Path p ts q)
    (htext : ∀ t ∈ ts, t.text ≠ "") : ∀ t ∈ ts, t.Accounted reports ls ts := by
  induction h generalizing p with
  | nil => exact List.forall_mem_nil _
  | @blank u ts ls hu _ ih =>
    intro t ht
    obtain rfl | ht := List.mem_cons.mp ht
    · exact .blank hu
    · exact (ih hpath.2 (fun v hv => htext v (List.mem_cons_of_mem _ hv)) t ht).prepend [u]
  | @line l read trail left ts ls hread hline _ htrail hleft h ih =>
    obtain ⟨-, m, m', hpathTrail, hpathLeft, hlater⟩ := hline.split hread hpath
    intro t ht
    obtain ht | ht := List.mem_append.mp ht
    · exact .inLine List.mem_cons_self (hline.covers ht)
    obtain ht | ht := List.mem_append.mp ht
    · -- In the trail: all of a comment lies after this line and before the lines that follow.
      obtain hblank | ⟨before, comment, later, rfl, hcomment, hmem⟩ := htrail.mem ht
      · exact .blank (.inl hblank)
      · have hts : read ++ (before ++ comment ++ later ++ (left ++ ts)) =
            read ++ before ++ comment ++ (later ++ (left ++ ts)) := by simp
        refine .inComment hts hcomment hmem fun u hu l' hl' => ?_
        have hmem : u ∈ before ++ comment ++ later := by simp [hu]
        have hu : u.text ≠ "" := htext u (by simp [hu])
        obtain rfl | hl' := List.mem_cons.mp hl'
        · exact hpathTrail.not_covers_before hmem hu (Nat.le_refl _)
        · exact hpathTrail.not_covers_after hmem hu
            (hpathLeft.offset_le.trans (h.start_le hlater l' hl'))
    obtain ht | ht := List.mem_append.mp ht
    · -- In what is left of the line: there is a report on all of it.
      obtain rfl | ⟨d, hd, hcode, hspan⟩ := hleft
      · cases ht
      · exact .reported hd hcode (hspan.covers ht)
    · -- After the line, which makes no difference there.
      have hts : ∀ u ∈ ts, u.text ≠ "" := fun u hu => htext u (by simp [hu])
      have hstop : l.span.stop.offset ≤ m'.offset := hpathTrail.offset_le.trans hpathLeft.offset_le
      have haccounted := (ih hlater hts t ht).line_before hlater hts hstop
      simpa using haccounted.prepend (read ++ trail ++ left)

end Arranges

end Story
