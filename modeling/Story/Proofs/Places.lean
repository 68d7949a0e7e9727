import Mathlib.Data.List.Infix
import Story.Grammar.Module
import Story.Proofs.Tokenization

/-!
# Places of tokens

The tokens of a text lie one after the other without a gap. So the span of a construct, which is given by
the positions before and after it, covers just the tokens that were read for it.

* `Token.Path p ts q` — the tokens `ts` lead from the place `p` to the place `q`;
* `State.Placed` — what is left of a text leads from the place that has been reached to the end, no token
  of it is empty, and after the end of a line a new one starts;
* `State.Placed.path_read` — what is read between two states leads from the position of the first to that
  of the second;
* `State.placed_ofText` — before a text everything is in its place, with comment signs split;
* `State.cut_ofText`, `State.sign_ofText` — what its tokens are spelled like.
-/

namespace Story

/-! ### Paths -/

namespace Token

/-- **The tokens lead from `p` to `q`:** the first one starts at `p`, each other one where the one before
it stops, and the last one stops at `q`. -/
def Path (p : Position) : List Token → Position → Prop
  | [], q => p = q
  | t :: ts, q => t.start = p ∧ Path t.stop ts q

variable {p q r : Position} {t : Token} {ts ts' : List Token}

theorem path_append : Path p (ts ++ ts') r ↔ ∃ q, Path p ts q ∧ Path q ts' r := by
  induction ts generalizing p with
  | nil => simp [Path]
  | cons t ts ih => simp [Path, ih, and_assoc]

theorem Path.stop_eq (h : Path p ts q) (h' : Path p ts r) : q = r := by
  induction ts generalizing p with
  | nil => exact h.symm.trans h'
  | cons t ts ih => exact ih h.2 h'.2

theorem Path.start_eq {p' q' : Position} (h : Path p ts q) (h' : Path p' ts q') (hts : ts ≠ []) :
    p = p' := by
  cases ts with
  | nil => exact absurd rfl hts
  | cons t ts => exact h.1.symm.trans h'.1

theorem offset_stop (t : Token) : t.stop.offset = t.start.offset + t.size :=
  Position.offset_advance _ _

theorem Path.offset_le (h : Path p ts q) : p.offset ≤ q.offset := by
  induction ts generalizing p with
  | nil => exact Nat.le_of_eq (congrArg Position.offset h)
  | cons t ts ih =>
    obtain ⟨rfl, h⟩ := h
    calc
      t.start.offset ≤ t.stop.offset := by rw [offset_stop]; exact Nat.le_add_right _ _
      _ ≤ q.offset := ih h

end Token

/-- The span covers all of the token. -/
def Span.Covers (span : Span) (t : Token) : Prop :=
  span.start.offset ≤ t.start.offset ∧ t.stop.offset ≤ span.stop.offset

namespace Token

variable {p q : Position} {t : Token} {ts : List Token}

/-- A path covers its tokens. -/
theorem Path.covers (h : Path p ts q) (ht : t ∈ ts) : (Span.mk p q).Covers t := by
  -- The way goes up to the token, over it, and on from there.
  obtain ⟨before, after, rfl⟩ := List.append_of_mem ht
  obtain ⟨m, hbefore, rfl, hafter⟩ := path_append.mp h
  exact ⟨hbefore.offset_le, hafter.offset_le⟩

theorem offset_lt (htext : t.text ≠ "") : t.start.offset < t.stop.offset := by
  have hsize : 0 < t.size := Nat.pos_of_ne_zero fun h0 => htext (String.utf8ByteSize_eq_zero_iff.mp h0)
  rw [offset_stop]
  exact Nat.lt_add_of_pos_right hsize

/-! ### Comment signs -/

theorem path_ofChars (p : Position) (cs : List Char) :
    Path p (ofChars p cs) (cs.foldl Position.step p) := by
  induction cs generalizing p with
  | nil => rfl
  | cons c cs ih =>
    have hstop : (⟨.ofChar c, c.toString, p⟩ : Token).stop = p.step c := by
      simp [stop, Position.advance]
    refine ⟨rfl, ?_⟩
    rw [hstop]
    exact ih (p.step c)

theorem path_signs (t : Token) : Path t.start t.signs t.stop := by
  unfold signs
  split
  · exact path_ofChars t.start t.text.toList
  · exact ⟨rfl, rfl⟩

/-- Comment signs are split in place. -/
theorem Path.splitComments (h : Path p ts q) : Path p (splitComments ts) q := by
  induction ts generalizing p with
  | nil => exact h
  | cons t ts ih =>
    obtain ⟨rfl, h⟩ := h
    exact path_append.mpr ⟨t.stop, path_signs t, ih h⟩

end Token

/-- The tokens of a text lead from its start to its end. -/
theorem Tokenizes.path {table : List Spelling} {IsWord : List Char → List Char → Prop} {p : Position}
    {text : List Char} {ts : List Token} (h : Tokenizes table IsWord p text ts) :
    ∃ q, Token.Path p ts q := by
  induction ts generalizing p text with
  | nil => exact ⟨p, rfl⟩
  | cons t ts ih =>
    by_cases hk : t.kind = .endfile
    · -- After the end of the file there is no further token.
      obtain ⟨-, heq⟩ := h.eq_endfile hk
      rw [heq]
      exact ⟨_, rfl, rfl⟩
    · obtain ⟨q, hq⟩ := ih (h.tail hk)
      exact ⟨q, h.start_eq, hq⟩

/-! ### The tokens of a story -/

/-- A token of a text is a stretch of it. -/
theorem infix_of_mem_scan {source : String} {t : Token} (ht : t ∈ scan source) :
    t.text.toList <:+: source.toList := by
  obtain ⟨before, after, heq⟩ := List.append_of_mem ht
  have hjoined := (Scanner.tokenizes_tokens TokenKind.spellings_lawful source.toList .zero).joined
  change (Token.joined (scan source)).toList = _ at hjoined
  rw [heq, Token.joined_append, Token.joined_cons, String.toList_append, String.toList_append] at hjoined
  exact ⟨(Token.joined before).toList, (Token.joined after).toList, by rw [List.append_assoc, hjoined]⟩

theorem Token.mem_ofChars {p : Position} {cs : List Char} {t : Token} (ht : t ∈ Token.ofChars p cs) :
    ∃ c ∈ cs, t.kind = .ofChar c ∧ t.text = c.toString := by
  induction cs generalizing p with
  | nil => cases ht
  | cons c cs ih =>
    obtain rfl | ht := List.mem_cons.mp ht
    · exact ⟨c, List.mem_cons_self, rfl, rfl⟩
    · obtain ⟨c', hc', heq⟩ := ih ht
      exact ⟨c', List.mem_cons_of_mem _ hc', heq⟩

/-- The kind of a character is that of its spelling, or it is a word. -/
theorem TokenKind.ofChar_cases (c : Char) :
    ofChar c = .word ∨ ∃ s ∈ spellings, s.text = [c] ∧ ofChar c = s.kind := by
  unfold ofChar
  split
  · next s hs =>
    have htext := List.find?_some hs
    exact .inr ⟨s, List.mem_of_find?_eq_some hs, beq_iff_eq.mp htext, rfl⟩
  · exact .inl rfl

/-- **A sign for itself:** the character is spelled by itself, and comment signs apart no other spelling
has it. -/
def TokenKind.IsSign (k : TokenKind) (c : Char) : Prop :=
  ⟨[c], k⟩ ∈ spellings ∧ ∀ s ∈ spellings, s.kind.isComment = false → c ∈ s.text → s = ⟨[c], k⟩

instance (k : TokenKind) (c : Char) : Decidable (k.IsSign c) := inferInstanceAs (Decidable (_ ∧ _))

/-- What is known of a token of a story, whether it was split off a comment sign or not: it has text, all
of it from the source, and it is a word or one of the spellings. -/
structure Token.IsOf (source : List Char) (t : Token) : Prop where
  nonempty : t.text ≠ ""
  chars : ∀ c ∈ t.text.toList, c ∈ source
  spelled : t.kind = .word ∨ ∃ s ∈ TokenKind.spellings, t.kind = s.kind ∧ t.text.toList = s.text

theorem Token.IsOf.kind_ne_endfile {source : List Char} {t : Token} (h : t.IsOf source) :
    t.kind ≠ .endfile := by
  obtain hword | ⟨s, hs, hkind, -⟩ := h.spelled
  · rw [hword]
    decide
  · rw [hkind]
    exact (TokenKind.spellings_lawful.isSign s hs).2

/-- What holds of all spellings of a kind holds of its tokens. -/
theorem Token.IsOf.of_spellings {source : List Char} {t : Token} {k : TokenKind} {P : List Char → Prop}
    (h : t.IsOf source) (hk : t.kind = k) (hword : k ≠ .word)
    (hall : ∀ s ∈ TokenKind.spellings, s.kind = k → P s.text) : P t.text.toList := by
  obtain hw | ⟨s, hs, hkind, htext⟩ := h.spelled
  · exact absurd (hk.symm.trans hw) hword
  · rw [htext]
    exact hall s hs (hkind.symm.trans hk)

/-- Both spellings of the end of a line end in a line feed, so a line starts after it. -/
theorem Token.IsOf.column_stop {source : List Char} {t : Token} (h : t.IsOf source)
    (hend : t.kind = .endline) : t.stop.column = 0 := by
  have hlast : t.text.toList.getLast? = some '\n' :=
    h.of_spellings (P := fun text => text.getLast? = some '\n') hend (by decide) (by decide)
  -- The last step over the text is the one over the line feed.
  obtain ⟨line, hline⟩ := List.getLast?_eq_some_iff.mp hlast
  rw [stop, Position.advance, hline, List.foldl_append]
  rfl

theorem Token.IsOf.signs {source : List Char} {t u : Token} (h : t.IsOf source) (hu : u ∈ t.signs) :
    u.IsOf source := by
  unfold Token.signs at hu
  split at hu
  · -- A sign that was split off has one character, and a spelling of its own or none.
    obtain ⟨c, hc, hkind, htext⟩ := Token.mem_ofChars hu
    have hchars : u.text.toList = [c] := by simp [htext]
    refine ⟨?_, ?_, ?_⟩
    · intro hempty
      simp [hempty] at hchars
    · rw [hchars]
      simpa using h.chars c hc
    · obtain hword | ⟨s, hs, hsc, hsk⟩ := TokenKind.ofChar_cases c
      · exact .inl (hkind.trans hword)
      · exact .inr ⟨s, hs, hkind.trans hsk, hchars.trans hsc.symm⟩
  · rw [List.mem_singleton] at hu
    exact hu ▸ h

/-- All tokens of a text but the last are cut off from it. -/
theorem isOf_of_mem_scan {source : String} {t : Token} (ht : t ∈ scan source) (hend : t.kind ≠ .endfile) :
    t.IsOf source.toList := by
  have hscan := Scanner.tokenizes_tokens TokenKind.spellings_lawful source.toList .zero
  change Tokenizes _ _ _ _ (scan source) at hscan
  obtain ⟨as, bs, heq⟩ := List.append_of_mem ht
  refine ⟨hscan.text_ne_empty ht hend, fun c hc => (infix_of_mem_scan ht).subset hc, ?_⟩
  obtain ⟨hword, -⟩ | ⟨s, hs, hkind, hchars⟩ := hscan.cut as t bs heq hend
  · exact .inl hword
  · exact .inr ⟨s, hs.mem, hkind, hchars⟩

/-- **The tokens that a story is read from,** and the end of the file after them. -/
theorem splitComments_scan (source : String) :
    ∃ ts finish, splitComments (scan source) = ts ++ [.endfile finish] ∧
      Token.Path .zero ts finish ∧ ∀ t ∈ ts, t.IsOf source.toList := by
  have hscan := Scanner.tokenizes_tokens TokenKind.spellings_lawful source.toList .zero
  change Tokenizes _ _ _ _ (scan source) at hscan
  obtain ⟨before, last, hts, hlast, htext, hbefore⟩ := hscan.ended
  obtain ⟨q, hq⟩ := hscan.path
  have hend : last = .endfile last.start := by
    cases last
    simp_all [Token.endfile]
  -- The end of the file is no comment sign, so only what is before it is split.
  have hsplit : splitComments (scan source) = splitComments before ++ [.endfile last.start] := by
    rw [hts, splitComments, List.flatMap_append, ← splitComments, List.flatMap_singleton, hend]
    rfl
  rw [hts] at hq
  obtain ⟨m, hm, rfl, -⟩ := Token.path_append.mp hq
  refine ⟨splitComments before, last.start, hsplit, hm.splitComments, ?_⟩
  intro u hu
  obtain ⟨t, ht, hu⟩ := List.mem_flatMap.mp hu
  have hmem : t ∈ scan source := hts ▸ List.mem_append_left _ ht
  exact (isOf_of_mem_scan hmem (hbefore t ht).1).signs hu

/-! ### States -/

namespace State

/-- A token that does not end the line is one of those that are left. -/
theorem current_mem_rest {s : State} (h : s.isLineEnd = false) : s.current ∈ s.rest := by
  unfold isLineEnd kind current at h
  unfold current
  rcases hr : s.rest with _ | ⟨t, ts⟩
  · rw [hr] at h
    cases h
  · exact List.mem_cons_self

/-- **Everything in its place:** what is left leads from here to the end, no token of it is empty or the
end of the file, and after the end of a line a line starts. -/
structure Placed (s : State) : Prop where
  path : Token.Path s.position s.rest s.finish
  nonempty : ∀ t ∈ s.rest, t.text ≠ ""
  kind : ∀ t ∈ s.rest, t.kind ≠ .endfile
  column : ∀ t ∈ s.rest, t.kind = .endline → t.stop.column = 0

/-- Whatever leads to the end starts here. -/
theorem position_eq {s : State} {p : Position} (h : Token.Path p s.rest s.finish) : s.position = p := by
  unfold position current
  rcases hr : s.rest with _ | ⟨t, ts⟩
  · rw [hr] at h
    exact h.symm
  · rw [hr] at h
    exact h.1

namespace Placed

variable {s t : State}

/-- **What is read between two states** leads from the position of the first to that of the second. -/
theorem path_read (h : s.Placed) (h' : s.Extends t) :
    ∃ ts, s.rest = ts ++ t.rest ∧ ts.length = t.cursor - s.cursor ∧
      Token.Path s.position ts t.position := by
  obtain ⟨ts, hts⟩ := h'.rest
  have hpath := h.path
  -- What is read and what is left make up the path, and what is left starts at the new position.
  rw [← hts, ← h'.finish] at hpath
  obtain ⟨m, hm, hrest⟩ := Token.path_append.mp hpath
  refine ⟨ts, hts.symm, ?_, position_eq hrest ▸ hm⟩
  have hcursor := h'.cursor
  have hlength := congrArg List.length hts
  rw [List.length_append] at hlength
  omega

theorem extended (h : s.Placed) (h' : s.Extends t) : t.Placed where
  path := by
    obtain ⟨ts, hts, -, hread⟩ := h.path_read h'
    have hpath := h.path
    rw [hts, ← h'.finish] at hpath
    obtain ⟨m, hm, hrest⟩ := Token.path_append.mp hpath
    exact hm.stop_eq hread ▸ hrest
  nonempty u hu := h.nonempty u (h'.rest.subset hu)
  kind u hu := h.kind u (h'.rest.subset hu)
  column u hu := h.column u (h'.rest.subset hu)

end Placed

/-- **Before a story is read, all its tokens are left,** from the start of the text to its end. -/
theorem ofText_spec (source : String) (indentSize : Nat) :
    splitComments (scan source) =
        (ofText source indentSize).rest ++ [.endfile (ofText source indentSize).finish] ∧
      Token.Path .zero (ofText source indentSize).rest (ofText source indentSize).finish ∧
      ∀ t ∈ (ofText source indentSize).rest, t.IsOf source.toList := by
  obtain ⟨ts, finish, heq, hpath, hof⟩ := splitComments_scan source
  -- The end of the file is the only token that the filter drops.
  have hrest : (ofText source indentSize).rest = ts := by
    change (splitComments (scan source)).filter _ = ts
    rw [heq, List.filter_append, List.filter_eq_self.mpr]
    · exact List.append_nil ts
    · exact fun t ht => by simpa using (hof t ht).kind_ne_endfile
  have hfinish : (ofText source indentSize).finish = finish := by
    unfold ofText ofTokens
    dsimp only
    rw [heq, List.getLast?_concat]
    rfl
  rw [hrest, hfinish]
  exact ⟨heq, hpath, hof⟩

theorem isOf_ofText {source : String} {indentSize : Nat} {t : Token}
    (ht : t ∈ (ofText source indentSize).rest) : t.IsOf source.toList :=
  (ofText_spec source indentSize).2.2 t ht

/-- **The tokens of a story are words without a spelling in them, and spellings.** No comment sign is
among these. -/
theorem cut_ofText {source : String} {indentSize : Nat} {t : Token}
    (ht : t ∈ (ofText source indentSize).rest) :
    t.kind = .word ∧ Plain TokenKind.spellings t.text.toList [] ∨
      ∃ s ∈ TokenKind.spellings, s.kind.isComment = false ∧ t.kind = s.kind ∧ t.text.toList = s.text := by
  have hend := (isOf_ofText ht).kind_ne_endfile
  -- Comment signs are made of slashes and stars, which are signs by themselves.
  have hsigns : ∀ s ∈ TokenKind.spellings, s.kind.isComment = true → s.text ⊆ ['/', '*'] := by decide
  obtain ⟨u, hu, ht⟩ := List.mem_flatMap.mp (List.mem_filter.mp ht).1
  have hscan := Scanner.tokenizes_tokens TokenKind.spellings_lawful source.toList .zero
  obtain ⟨before, after, heq⟩ := List.append_of_mem hu
  have hcut := hscan.cut before u after heq
  unfold Token.signs at ht
  split at ht
  · next hcomment =>
    obtain ⟨hword, -⟩ | ⟨s, hs, hkind, htext⟩ :=
      hcut fun hend => by simp [hend, TokenKind.isComment] at hcomment
    · simp [hword, TokenKind.isComment] at hcomment
    · obtain ⟨c, hc, htkind, httext⟩ := Token.mem_ofChars ht
      have hchars : t.text.toList = [c] := by simp [httext]
      have hsign : c ∈ ['/', '*'] := hsigns s hs.mem (hkind ▸ hcomment) (htext ▸ hc)
      obtain rfl | rfl : c = '/' ∨ c = '*' := by simpa using hsign
      · exact .inr ⟨⟨['/'], .slash⟩, by decide, rfl, htkind, hchars⟩
      · exact .inr ⟨⟨['*'], .star⟩, by decide, rfl, htkind, hchars⟩
  · next hcomment =>
    obtain rfl := List.mem_singleton.mp ht
    obtain ⟨hword, hunbroken⟩ | ⟨s, hs, hkind, htext⟩ := hcut hend
    · exact .inl ⟨hword, hunbroken.plain TokenKind.spellings_lawful⟩
    · exact .inr ⟨s, hs.mem, by simpa [hkind] using hcomment, hkind, htext⟩

/-- A sign is a token to itself. -/
theorem sign_ofText {source : String} {indentSize : Nat} {t : Token} {c : Char} {k : TokenKind}
    (hk : k.IsSign c) (ht : t ∈ (ofText source indentSize).rest) (hc : c ∈ t.text.toList) :
    t.kind = k ∧ t.text.toList = [c] := by
  obtain ⟨-, hplain⟩ | ⟨s, hs, hcomment, hkind, htext⟩ := cut_ofText ht
  · exact absurd ((List.singleton_infix_iff ..).mpr hc) (hplain _ hk.1)
  · obtain rfl := hk.2 s hs hcomment (htext ▸ hc)
    exact ⟨hkind, htext⟩

theorem position_ofText (source : String) (indentSize : Nat) :
    (ofText source indentSize).position = .zero :=
  position_eq (ofText_spec source indentSize).2.1

theorem placed_ofText (source : String) (indentSize : Nat) : (ofText source indentSize).Placed where
  path := by
    rw [position_ofText]
    exact (ofText_spec source indentSize).2.1
  nonempty _ ht := (isOf_ofText ht).nonempty
  kind _ ht := (isOf_ofText ht).kind_ne_endfile
  column _ ht := (isOf_ofText ht).column_stop

end State

end Story
