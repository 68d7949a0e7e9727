import Mathlib.Data.List.Chain
import Story.Proofs.Slices
import Story.Proofs.Suffixes
import Story.Proofs.TextParts

/-!
# Quoted text without values

A text between quotes that has no quote, no backslash and no line end in it, and where every star is
followed by a blank, stands for itself: the literal has one chunk, which is the text, and it ends at its
closing quote.

* `PlainQuoted` — such texts. A star may also be the last character;
* `Grammar.GoesWithWords` — the tokens that are taken over as they stand. A run over them is
  `Grammar.loop_words`;
* `Grammar.quoted_closes`, `Grammar.quoted_of_star` — the two ways in which such a text ends. A star right
  before the closing quote takes the quote for the start of a value, so the text does not end there;
* `plain_literal_closes_iff` — so a text is read back as it is just if its last character is no star.
-/

namespace Story

/-! ### Plain text -/

/-- The character that a quote is. -/
def Quote.char : Quote → Char
  | .single => '\x27'
  | .double => '\x22'
  | .backtick => '\x60'

theorem Quote.toList_spelling (quote : Quote) : quote.spelling.toList = [quote.char] := by
  cases quote <;> rfl

theorem Quote.isSign_char (quote : Quote) : quote.kind.IsSign quote.char := by
  cases quote <;> decide

/-- **A text without values:** it has no quote, no backslash and no line feed, and after a star that is not
its last character comes a blank. -/
structure PlainQuoted (quote : Quote) (text : String) : Prop where
  quotes : quote.char ∉ text.toList
  backslashes : '\\' ∉ text.toList
  lines : '\n' ∉ text.toList
  stars : text.toList.IsChain fun c next => c = '*' → next = ' ' ∨ next = '\t'

namespace PlainQuoted

variable {quote : Quote} {text text' : String}

theorem of_piece {before after : List Char} (h : PlainQuoted quote text)
    (hsplit : text.toList = before ++ text'.toList ++ after) : PlainQuoted quote text' := by
  have hsubset : text'.toList ⊆ text.toList := by
    rw [hsplit]
    exact fun c hc => List.mem_append_left _ (List.mem_append_right _ hc)
  have hstars := h.stars
  rw [hsplit] at hstars
  exact ⟨fun hc => h.quotes (hsubset hc), fun hc => h.backslashes (hsubset hc),
    fun hc => h.lines (hsubset hc), hstars.left_of_append.right_of_append⟩

theorem of_append_left (h : PlainQuoted quote (text ++ text')) : PlainQuoted quote text := by
  have hsplit : (text ++ text').toList = [] ++ text.toList ++ text'.toList := String.toList_append ..
  exact h.of_piece hsplit

theorem of_append_right (h : PlainQuoted quote (text ++ text')) : PlainQuoted quote text' := by
  have hsplit : (text ++ text').toList = text.toList ++ text'.toList ++ [] := by
    rw [String.toList_append, List.append_nil]
  exact h.of_piece hsplit

/-- Before a last star there is no other. -/
theorem getLast?_ne_star (h : PlainQuoted quote (text ++ "*")) : text.toList.getLast? ≠ some '*' := by
  intro hlast
  have hstars := h.stars
  rw [String.toList_append, List.isChain_append] at hstars
  have hnext := hstars.2.2 '*' hlast '*' rfl rfl
  revert hnext
  decide

end PlainQuoted

/-- The parts of a text without values: one chunk, unless there is no text. -/
def TextPart.ofWords (start : Position) (text : String) : List TextPart :=
  if text = "" then [] else [.chunk ⟨start, start.advance text⟩ text]

/-! ### Reading a number of tokens -/

namespace State

variable {s : State} {t : Token} {ts after : List Token}

theorem current_of_rest (h : s.rest = t :: ts) : s.current = t := by
  rw [current, h]
  rfl

theorem advance_of_rest (h : s.rest = t :: ts) :
    s.advance = { s with rest := ts, cursor := s.cursor + 1 } := by
  rw [advance, h]

theorem advanceBy_of_rest (h : s.rest = ts ++ after) :
    s.advanceBy ts.length = { s with rest := after, cursor := s.cursor + ts.length } := by
  induction ts generalizing s with
  | nil =>
    rw [List.nil_append] at h
    rw [← h]
    rfl
  | cons t ts ih =>
    change s.advance.advanceBy ts.length = _
    rw [advance_of_rest h, ih rfl, List.length_cons]
    simp only [Nat.add_assoc, Nat.add_comm 1]

/-- Tokens that are read lead from their start over their text. -/
theorem Placed.position_advanceBy (hs : s.Placed) (h : s.rest = ts ++ after) :
    (s.advanceBy ts.length).position = s.position.advance (Token.joined ts) := by
  obtain ⟨us, hus, -, hpath⟩ := hs.path_read (extends_advanceBy ts.length s)
  rw [advanceBy_of_rest h] at hus
  obtain rfl : ts = us := List.append_cancel_right (h.symm.trans hus)
  exact hpath.stop_eq_advance

end State

/-! ### The tokens between quotes -/

namespace State

variable {source : String} {indentSize : Nat} {ts : List Token} {c : Char} {cs : List Char} {k : TokenKind}

/-- A sign at the start of a text is its first token. -/
theorem joined_eq_cons (hk : k.IsSign c) (hts : ts ⊆ (ofText source indentSize).rest)
    (h : (Token.joined ts).toList = c :: cs) :
    ∃ u us, ts = u :: us ∧ u.kind = k ∧ u.text.toList = [c] ∧ (Token.joined us).toList = cs := by
  rcases ts with _ | ⟨u, us⟩
  · cases h
  · have hu := hts List.mem_cons_self
    rw [Token.joined_cons, String.toList_append] at h
    rcases htext : u.text.toList with _ | ⟨d, ds⟩
    · -- No token of a story is empty.
      exact absurd (String.toList_eq_nil_iff.mp htext) (isOf_ofText hu).nonempty
    · rw [htext] at h
      -- The token has the sign in it, so it has nothing else.
      obtain ⟨rfl, hrest⟩ := List.cons.inj h
      obtain ⟨hkind, hone⟩ := sign_ofText hk hu (htext ▸ List.mem_cons_self)
      obtain rfl : ds = [] := List.tail_eq_of_cons_eq (htext.symm.trans hone)
      exact ⟨u, us, rfl, hkind, htext, hrest⟩

/-- A sign at the end of a text is its last token. -/
theorem joined_eq_concat (hk : k.IsSign c) (hts : ts ⊆ (ofText source indentSize).rest)
    (h : (Token.joined ts).toList = cs ++ [c]) :
    ∃ us u, ts = us ++ [u] ∧ u.kind = k ∧ u.text.toList = [c] ∧ (Token.joined us).toList = cs := by
  obtain rfl | ⟨us, u, rfl⟩ := List.eq_nil_or_concat' ts
  · simp at h
  · have hu := hts List.mem_concat_self
    rw [Token.joined_append, Token.joined_cons, Token.joined_nil, String.append_empty,
      String.toList_append] at h
    obtain htext | ⟨ds, d, htext⟩ := List.eq_nil_or_concat' u.text.toList
    · exact absurd (String.toList_eq_nil_iff.mp htext) (isOf_ofText hu).nonempty
    · rw [htext, ← List.append_assoc] at h
      -- Here too the token has nothing but the sign.
      obtain ⟨hcs, ⟨⟩⟩ := List.append_inj' h rfl
      obtain ⟨hkind, hone⟩ := sign_ofText hk hu (by rw [htext]; exact List.mem_concat_self)
      obtain ⟨rfl, -⟩ : ds = [] ∧ _ := List.append_inj' (htext.symm.trans hone) rfl
      rw [List.append_nil] at hcs
      exact ⟨us, u, rfl, hkind, htext, hcs⟩

theorem between_subset {s : State} {first last : Token} {us : List Token}
    (h : s.rest = first :: (us ++ [last])) : us ⊆ s.rest := by
  rw [h]
  exact fun u hu => List.mem_cons_of_mem _ (List.mem_append_left _ hu)

/-- **A text between quotes is read from its own tokens,** with a token for each of the quotes. -/
theorem rest_ofText_quoted (quote : Quote) (text : String) (indentSize : Nat) :
    ∃ opening us closing,
      (ofText (quote.spelling ++ text ++ quote.spelling) indentSize).rest = opening :: (us ++ [closing]) ∧
      (opening.kind = quote.kind ∧ opening.text = quote.spelling) ∧
      (closing.kind = quote.kind ∧ closing.text = quote.spelling) ∧ Token.joined us = text := by
  have hquote {u : Token} (hu : u.text.toList = [quote.char]) : u.text = quote.spelling :=
    String.ext (hu.trans quote.toList_spelling.symm)
  have hjoined := joined_ofText (quote.spelling ++ text ++ quote.spelling) indentSize
  have hchars := congrArg String.toList hjoined
  rw [String.toList_append, String.toList_append, quote.toList_spelling, List.append_assoc,
    List.singleton_append] at hchars
  -- The opening quote is the first token, and of the others the closing quote is the last.
  obtain ⟨opening, ts, hts, hkind, htext, hafter⟩ :=
    joined_eq_cons quote.isSign_char (List.Subset.refl _) hchars
  have hsubset : ts ⊆ (ofText (quote.spelling ++ text ++ quote.spelling) indentSize).rest := by
    rw [hts]
    exact List.subset_cons_self _ _
  obtain ⟨us, closing, rfl, hkind', htext', hbetween⟩ := joined_eq_concat quote.isSign_char hsubset hafter
  exact ⟨opening, us, closing, hts, ⟨hkind, hquote htext⟩, ⟨hkind', hquote htext'⟩, String.ext hbetween⟩

end State

/-! ### Words between quotes -/

namespace Grammar.Content

/-- Add words to the pending chunk, if there are any. -/
def words (c : Content) (start : Position) (text : String) : Content :=
  if text = "" then c else c.extend start text

/-- Words after words go to the same chunk. -/
theorem words_extend (c : Content) (start start' : Position) (text text' : String) :
    (c.extend start text).words start' text' = c.extend start (text ++ text') := by
  unfold words
  split
  · next h => rw [h, String.append_empty]
  · rcases hp : c.pending with _ | ⟨first, before⟩
    · simp [extend, hp]
    · simp [extend, hp, String.append_assoc]

theorem finish_words (start : Position) (text : String) :
    (empty.words start text).finish (start.advance text) = TextPart.ofWords start text := by
  unfold words TextPart.ofWords
  split <;> rfl

/-- A value after the words is a part of its own. -/
theorem finish_add (c : Content) (part : TextPart) (here stop : Position) :
    ((c.flush here).add part).finish stop = c.finish here ++ [part] := by
  have hpending : ((c.flush here).add part).pending = none := flush_pending c here
  rw [finish, flush_of_pending hpending]
  exact List.reverse_cons

end Grammar.Content

namespace Grammar

open Story.Parser

/-- **Tokens that go with the words** between quotes: none of them closes the quotes, escapes what follows
or ends the line, and each star among them has a blank after it. -/
def GoesWithWords (quote : TokenKind) : List Token → Prop
  | [] => True
  | u :: us => u.kind ≠ quote ∧ u.kind ≠ .backslash ∧ u.kind.isLineEnd = false ∧
      (u.kind = .star → ∃ v ∈ us.head?, v.kind.isBlank = true) ∧ GoesWithWords quote us

/-- What follows a star in a text without values starts with a blank, if it does not end with the star. -/
theorem blank_after_star {source : String} {indentSize : Nat} {us : List Token}
    (hus : us ⊆ (State.ofText source indentSize).rest)
    (hstars : ('*' :: (Token.joined us).toList).IsChain fun c next => c = '*' → next = ' ' ∨ next = '\t')
    (hlast : ('*' :: (Token.joined us).toList).getLast? ≠ some '*') :
    ∃ v ∈ us.head?, v.kind.isBlank = true := by
  rcases us with _ | ⟨v, vs⟩
  · exact absurd rfl hlast
  · have hv := hus List.mem_cons_self
    refine ⟨v, rfl, ?_⟩
    rw [Token.joined_cons, String.toList_append] at hstars
    rcases htext : v.text.toList with _ | ⟨c, cs⟩
    · exact absurd (String.toList_eq_nil_iff.mp htext) (State.isOf_ofText hv).nonempty
    · have hc : c ∈ v.text.toList := htext ▸ List.mem_cons_self
      rw [htext] at hstars
      -- A blank after the star is a sign too, so the token is that blank.
      obtain rfl | rfl := (List.isChain_cons_cons.mp hstars).1 rfl
      · rw [(State.sign_ofText (k := .space) (by decide) hv hc).1]
        rfl
      · rw [(State.sign_ofText (k := .tab) (by decide) hv hc).1]
        rfl

/-- No token of a text without values closes it, escapes what follows or ends the line. -/
theorem kind_of_plain {source : List Char} {quote : Quote} {u : Token} (hu : u.IsOf source)
    (h : PlainQuoted quote u.text) :
    u.kind ≠ quote.kind ∧ u.kind ≠ .backslash ∧ u.kind.isLineEnd = false := by
  refine ⟨fun hk => h.quotes ?_, fun hk => h.backslashes ?_, ?_⟩
  · refine hu.of_spellings (P := (quote.char ∈ ·)) hk ?_ ?_ <;> cases quote <;> decide
  · exact hu.of_spellings (P := ('\\' ∈ ·)) hk (by decide) (by decide)
  · have hend : u.kind ≠ .endline := fun hk =>
      h.lines (hu.of_spellings (P := ('\n' ∈ ·)) hk (by decide) (by decide))
    have heof : u.kind ≠ .endfile := hu.kind_ne_endfile
    cases hk : u.kind <;> simp_all [TokenKind.isLineEnd]

/-- Text without values is made of such tokens, if it does not end in a star. -/
theorem goesWithWords_of_plain {source : String} {indentSize : Nat} {quote : Quote} {us : List Token}
    (hus : us ⊆ (State.ofText source indentSize).rest) (h : PlainQuoted quote (Token.joined us))
    (hlast : (Token.joined us).toList.getLast? ≠ some '*') : GoesWithWords quote.kind us := by
  induction us with
  | nil => trivial
  | cons u us ih =>
    obtain ⟨hu, hus⟩ := List.cons_subset.mp hus
    have hof := State.isOf_ofText hu
    rw [Token.joined_cons] at h hlast
    obtain ⟨hquote, hslash, hline⟩ := kind_of_plain hof h.of_append_left
    -- What does not end in a star has no end that does.
    have hlater : (Token.joined us).toList.getLast? ≠ some '*' := by
      intro hstar
      rw [String.toList_append, List.getLast?_append, hstar] at hlast
      exact hlast rfl
    refine ⟨hquote, hslash, hline, fun hstar => ?_, ih hus h.of_append_right hlater⟩
    have htext : u.text.toList = ['*'] :=
      hof.of_spellings (P := (· = ['*'])) hstar (by decide) (by decide)
    have hchain := h.stars
    rw [String.toList_append, htext] at hchain hlast
    exact blank_after_star hus hchain hlast

variable {g : Nested} {quote : TokenKind} {opening : Span} {c : Content} {s t : State}

/-- A star before a blank is no value. -/
theorem splice_eq_none (hblank : s.advance.kind.isBlank = true) :
    (splice g s).1 = none := by
  rcases h : splice g s with ⟨_ | part, t⟩
  · rfl
  · unfold splice at h
    obtain ⟨_, _, heat, h⟩ := bind_eq_some.mp h
    obtain ⟨-, -, rfl⟩ := eat_eq_some.mp heat
    obtain ⟨_, _, hrequire, -⟩ := bind_eq_some.mp h
    have hnot := (requireState_eq_some.mp hrequire).1
    rw [hblank] at hnot
    cases hnot

/-- Within the line the text goes on. -/
theorem not_unterminated (hline : s.isLineEnd = false) :
    ¬(s.isEof || (s.kind = .endline && quote != .backtick)) = true := by
  unfold State.isLineEnd at hline
  unfold State.isEof
  cases hk : s.kind <;> simp_all [TokenKind.isLineEnd]

/-- **One token that goes with the words.** -/
theorem quotedRound_of_word (hquote : s.kind ≠ quote) (hslash : s.kind ≠ .backslash)
    (hline : s.isLineEnd = false) (hstar : s.kind = .star → s.advance.kind.isBlank = true) :
    quotedRound g quote opening c s = (some (.again (c.extend s.position s.current.text)), s.advance) := by
  unfold quotedRound
  rw [state_bind_run, if_neg hquote, if_neg (not_unterminated hline), if_neg hslash]
  -- At a star a value is tried, and it fails because of the blank.
  by_cases hk : s.kind = .star
  · rw [if_pos hk]
    refine bind_eq_some.mpr ⟨_, s.advance, ?_, rfl⟩
    unfold starOrSplice
    rw [look_bind_run]
    exact bind_eq_some.mpr
      ⟨none, s, attempt_eq_some.mpr (.inr ⟨rfl, splice_eq_none (hstar hk), rfl⟩), rfl⟩
  · rw [if_neg hk]
    rfl

/-- **Tokens that go with the words are added to the text,** whatever comes after them. -/
theorem loop_words {us after : List Token} (hs : s.Placed) (hrest : s.rest = us ++ after)
    (hgoes : GoesWithWords quote us) :
    loop (quotedRound g quote opening) c s =
      loop (quotedRound g quote opening) (c.words s.position (Token.joined us)) (s.advanceBy us.length) := by
  induction us generalizing c s with
  | nil => rfl
  | cons u us ih =>
    obtain ⟨hquote, hslash, hline, hstar, hgoes⟩ := hgoes
    have hcurrent : s.current = u := State.current_of_rest hrest
    have hadvance : s.advance.rest = us ++ after := by rw [State.advance_of_rest hrest]; rfl
    -- The token is neither the quote nor a backslash nor the end of a line, and after a star comes a blank.
    have hround : quotedRound g quote opening c s =
        (some (.again (c.extend s.position s.current.text)), s.advance) := by
      refine quotedRound_of_word ?_ ?_ ?_ fun hk => ?_
      · rwa [State.kind, hcurrent]
      · rwa [State.kind, hcurrent]
      · rwa [State.isLineEnd, State.kind, hcurrent]
      · rw [State.kind, hcurrent] at hk
        obtain ⟨v, hv, hblank⟩ := hstar hk
        obtain ⟨vs, rfl⟩ := List.head?_eq_some_iff.mp hv
        rwa [State.kind, State.current_of_rest hadvance]
    have hne : u.text ++ Token.joined us ≠ "" := by
      have hu : u.text ≠ "" := hs.nonempty u (by rw [hrest]; exact List.mem_cons_self)
      intro h
      exact hu (String.append_eq_empty_iff.mp h).1
    calc
      loop (quotedRound g quote opening) c s
          = loop (quotedRound g quote opening) (c.extend s.position u.text) s.advance := by
        rw [loop_of_again (quotedRound_advances g quote opening) hround, hcurrent]
      _ = loop (quotedRound g quote opening) (c.extend s.position (u.text ++ Token.joined us))
            (s.advance.advanceBy us.length) := by
        rw [ih (hs.extended (State.extends_advance s)) hadvance hgoes, Content.words_extend]
      _ = _ := by
        rw [Token.joined_cons, Content.words, if_neg hne]
        rfl

/-- One value. -/
theorem quotedRound_of_splice {part : TextPart} (hquote : s.kind ≠ quote) (hstar : s.kind = .star)
    (hsplice : splice g s = (some part, t)) :
    quotedRound g quote opening c s = (some (.again ((c.flush s.position).add part)), t) := by
  have hline : s.isLineEnd = false := by
    rw [State.isLineEnd, hstar]
    rfl
  unfold quotedRound
  rw [state_bind_run, if_neg hquote, if_neg (not_unterminated hline), if_neg (by rw [hstar]; decide),
    if_pos hstar]
  refine bind_eq_some.mpr ⟨_, t, ?_, rfl⟩
  unfold starOrSplice
  rw [look_bind_run]
  exact bind_eq_some.mpr ⟨some part, t, attempt_eq_some.mpr (.inl ⟨part, rfl, hsplice⟩), rfl⟩

theorem quotedRound_of_quote (h : s.kind = quote) :
    quotedRound g quote opening c s =
      (some (.done (c.finish s.position, some s.current.span)), s.advance) := by
  unfold quotedRound
  rw [state_bind_run, if_pos h]
  rfl

theorem quotedRound_of_isEof (hquote : quote ≠ .endfile) (h : s.isEof = true) :
    quotedRound g quote opening c s =
      (some (.done (c.finish s.position, none)), s.reportAt opening .unterminatedString []) := by
  have hkind : s.kind ≠ quote := fun hk => hquote (hk.symm.trans (beq_iff_eq.mp h))
  unfold quotedRound
  rw [state_bind_run, if_neg hkind, if_pos (by rw [h]; rfl)]
  rfl

/-- **Up to the end of the words,** whatever comes there. -/
theorem quoted_words {us after : List Token} {first : Token} (hs : s.Placed)
    (hrest : s.rest = first :: (us ++ after)) (hgoes : GoesWithWords quote us) :
    let passed := { s with rest := after, cursor := s.cursor + (us.length + 1) }
    quoted g quote s = loop (quotedRound g quote first.span)
        (Content.empty.words (s.position.advance first.text) (Token.joined us)) passed ∧
      passed.position = (s.position.advance first.text).advance (Token.joined us) := by
  intro passed
  have hfirst : s.rest = [first] ++ (us ++ after) := hrest
  have hread : s.rest = (first :: us) ++ after := hrest
  have hpassed : s.advanceBy (us.length + 1) = passed := State.advanceBy_of_rest hread
  have hopened : s.advance.position = s.position.advance first.text := by
    have hposition := hs.position_advanceBy hfirst
    rwa [Token.joined_cons, Token.joined_nil, String.append_empty] at hposition
  constructor
  · have hadvance : s.advance.rest = us ++ after := by rw [State.advance_of_rest hrest]
    change loop (quotedRound g quote s.current.span) .empty s.advance = _
    rw [loop_words (hs.extended (State.extends_advance s)) hadvance hgoes, State.current_of_rest hrest,
      hopened, ← hpassed]
    rfl
  · have hposition := hs.position_advanceBy hread
    rw [List.length_cons, hpassed, Token.joined_cons, Position.advance_append] at hposition
    exact hposition

/-- **Words between quotes are the text, up to the closing quote.** -/
theorem quoted_closes {us after : List Token} {first last : Token} (hs : s.Placed)
    (hrest : s.rest = first :: (us ++ last :: after)) (hgoes : GoesWithWords quote us)
    (hlast : last.kind = quote) :
    quoted g quote s =
      (some (TextPart.ofWords (s.position.advance first.text) (Token.joined us), some last.span),
        { s with rest := after, cursor := s.cursor + (us.length + 2) }) := by
  obtain ⟨hwords, hposition⟩ := quoted_words (g := g) hs hrest hgoes
  refine (hwords.trans (loop_of_done (quotedRound_of_quote hlast))).trans ?_
  rw [hposition, Content.finish_words]
  rfl

/-! ### Literals -/

/-- The words that are read before an operand. -/
def operandWords : List String := ["typeof", "delete", "await", "yield", "new"]

/-- Where no operator stands, an operand is read. -/
theorem prefixed_eq_plainOperand (hupdate : atUpdate s = false) (hunary : unaryOperator? s.current = none)
    (hword : ∀ word ∈ operandWords, s.current.isWord word = false) (multiline : Bool) :
    prefixed g multiline s = plainOperand g multiline s := by
  simp only [operandWords, List.forall_mem_cons] at hword
  obtain ⟨htypeof, hdelete, hawait, hyield, hnew, -⟩ := hword
  have hnews : repeated newRound [] s = (some [], s) := by
    refine loop_of_done ?_
    unfold newRound
    rw [state_bind_run, if_neg (by simp [hnew])]
    rfl
  have hoperand : operand g multiline s = plainOperand g multiline s := by
    unfold operand
    change bindRun (repeated newRound []) _ s = _
    rw [bindRun, hnews]
    change (plainOperand g multiline >>= pure) s = _
    rw [bind_pure]
  unfold prefixed
  rw [state_bind_run, if_neg (by simp [hupdate]), hunary]
  simp only [wordOperator?, htypeof, hdelete, hawait, hyield]
  exact hoperand

/-- At a quote there is no operator to be read, only the literal. -/
theorem prefixed_of_quote {q : Quote} (h : s.kind = q.kind) (multiline : Bool) :
    prefixed g multiline s = stringLiteral g q s := by
  have hcurrent : s.current.kind = q.kind := h
  have hupdate : atUpdate s = false := by cases q <;> simp [atUpdate, h, Quote.kind]
  have hunary : unaryOperator? s.current = none := by cases q <;> simp [unaryOperator?, hcurrent, Quote.kind]
  rw [prefixed_eq_plainOperand hupdate hunary fun word _ => by
    cases q <;> simp [Token.isWord, hcurrent, Quote.kind]]
  unfold plainOperand
  rw [state_bind_run, h]
  cases q <;> rfl

variable {e : Expression}

/-- At the end of the file nothing is attached. -/
theorem continuation_at_end (hend : s.rest = []) (multiline binary : Bool) (start : Position) :
    continuation g multiline binary start e s = (some (.done e), s) := by
  have hadvances := continuation_advances g multiline binary start e s
  unfold continuation at hadvances ⊢
  generalize (if binary then attached g multiline start e <|> operated g multiline start e <|>
    conditional g multiline start e else attached g multiline start e) = next at hadvances ⊢
  rcases h : next s with ⟨_ | e', t⟩
  · exact bind_eq_some.mpr ⟨none, s, attempt_eq_some.mpr (.inr ⟨rfl, congrArg Prod.fst h, rfl⟩), rfl⟩
  · -- What is attached has been read, but there is nothing left to read.
    have hlt := hadvances e' t (bind_eq_some.mpr ⟨some e', t, attempt_eq_some.mpr (.inl ⟨e', rfl, h⟩), rfl⟩)
    have hless := length_lt_of_cursor_lt (extends_of_eq h) hlt
    rw [hend] at hless
    exact absurd hless (Nat.not_lt_zero _)

theorem expression_at_end {multiline : Bool} (binary : Bool) (h : prefixed g multiline s = (some e, t))
    (hend : t.rest = []) : expression g multiline binary s = (some e, t) :=
  bind_eq_some.mpr ⟨s.position, s, rfl, bind_eq_some.mpr
    ⟨e, t, h, loop_of_done (continuation_at_end hend multiline binary s.position)⟩⟩

/-- **A literal up to the end of the file is all of the expression.** -/
theorem outermost_literal {q : Quote} {parts : List TextPart} {close : Option Span}
    (hdepth : s.depth < nestingLimit) (hkind : s.kind = q.kind)
    (hquoted : quoted outermost q.kind { s with depth := s.depth + 1 } = (some (parts, close), t))
    (hend : t.rest = []) (multiline binary : Bool) :
    outermost.expression multiline binary s =
      (some (.string ⟨s.position, t.position⟩ q parts), { t with depth := s.depth }) := by
  have hliteral : stringLiteral outermost q { s with depth := s.depth + 1 } =
      (some (.string ⟨s.position, t.position⟩ q parts), t) := by
    unfold stringLiteral
    rw [look_bind_run]
    refine bind_eq_some.mpr ⟨(parts, close), t, ?_, rfl⟩
    rw [← hquoted, ← hkind]
    rfl
  have hinner : State.kind { s with depth := s.depth + 1 } = q.kind := hkind
  exact (outermost_expression_eq_some hdepth).mpr
    ⟨t, expression_at_end binary ((prefixed_of_quote hinner multiline).trans hliteral) hend, rfl⟩

/-! ### A star before the closing quote -/

/-- A quote at the end of the file opens a text that is not closed. -/
theorem quoted_of_last {q : Quote} {last : Token} (hs : s.Placed) (hrest : s.rest = [last]) :
    quoted g q.kind s = (some ([], none),
      { s with rest := [], cursor := s.cursor + 1,
               reports := .of .unterminatedString last.span [] :: s.reports }) := by
  have hlist : s.rest = last :: ([] ++ []) := hrest
  have hgoes : GoesWithWords q.kind [] := trivial
  obtain ⟨hwords, -⟩ := quoted_words (g := g) hs hlist hgoes
  exact hwords.trans (loop_of_done (quotedRound_of_isEof q.kind_ne_endfile rfl))

/-- **The quote after a star is taken for a value.** -/
theorem splice_of_quote {q : Quote} {star last : Token} (hs : s.Placed) (hdepth : s.depth < nestingLimit)
    (hrest : s.rest = [star, last]) (hstar : star.kind = .star) (hlast : last.kind = q.kind) :
    let here := s.position.advance star.text
    splice outermost s =
      (some (.splice ⟨s.position, s.finish⟩ (.string ⟨here, s.finish⟩ q [])),
        { s with rest := [], cursor := s.cursor + 2,
                 reports := .of .unterminatedString ⟨here, s.finish⟩ [] :: s.reports }) := by
  intro here
  have hpath := hs.path
  rw [hrest] at hpath
  obtain ⟨hstart, hmiddle, hfinish⟩ := hpath
  -- The quote is the last token; it starts after the star.
  have hadvance : s.advance = { s with rest := [last], cursor := s.cursor + 1 } := State.advance_of_rest hrest
  have hspan : last.span = ⟨here, s.finish⟩ := by
    rw [Token.span, hmiddle, hfinish, Token.stop, hstart]
  have hposition : s.advance.position = here := by
    rw [hadvance]
    exact hmiddle.trans (congrArg (Position.advance · star.text) hstart)
  have hkind : s.advance.kind = q.kind := by
    rw [hadvance]
    exact hlast
  have hstands : (!(s.advance.kind.isBlank || s.advance.isLineEnd || s.advance.atLineComment)) = true := by
    cases q <;> simp [State.isLineEnd, State.atLineComment, hkind, Quote.kind, TokenKind.isBlank,
      TokenKind.isLineEnd]
  have hplaced : State.Placed { s.advance with depth := s.advance.depth + 1 } :=
    { hs.extended (State.extends_advance s) with }
  have hdepth' : s.advance.depth < nestingLimit := by rwa [hadvance]
  have hvalue := outermost_literal hdepth' hkind (quoted_of_last hplaced (by rw [hadvance])) rfl false false
  unfold splice
  refine bind_eq_some.mpr ⟨star, s.advance, ?_, bind_eq_some.mpr
    ⟨(), s.advance, requireState_eq_some.mpr ⟨hstands, rfl⟩, bind_eq_some.mpr ⟨_, _, hvalue, ?_⟩⟩⟩
  · refine eat_eq_some.mpr ⟨?_, (State.current_of_rest hrest).symm, rfl⟩
    rwa [State.kind, State.current_of_rest hrest]
  · rw [hposition, hspan, hadvance, hstart]
    rfl

/-- **A text that ends in a star is not closed by its quote:** the quote opens a text in the text, and
neither of them is closed. -/
theorem quoted_of_star {q : Quote} {us : List Token} {first star last : Token} (hs : s.Placed)
    (hdepth : s.depth < nestingLimit) (hrest : s.rest = first :: (us ++ [star, last]))
    (hgoes : GoesWithWords q.kind us) (hstar : star.kind = .star) (hlast : last.kind = q.kind) :
    let opened := s.position.advance first.text
    let here := opened.advance (Token.joined us)
    let after := here.advance star.text
    quoted outermost q.kind s =
      (some (TextPart.ofWords opened (Token.joined us) ++
          [.splice ⟨here, s.finish⟩ (.string ⟨after, s.finish⟩ q [])], none),
        { s with rest := [], cursor := s.cursor + (us.length + 3),
                 reports := .of .unterminatedString first.span [] ::
                   .of .unterminatedString ⟨after, s.finish⟩ [] :: s.reports }) := by
  intro opened here after
  let passed : State := { s with rest := [star, last], cursor := s.cursor + (us.length + 1) }
  obtain ⟨hwords, hposition⟩ := quoted_words (g := outermost) hs hrest hgoes
  have hposition : passed.position = here := hposition
  have hplaced : passed.Placed := by
    have hread : s.rest = (first :: us) ++ [star, last] := hrest
    have hpassed : s.advanceBy (us.length + 1) = passed := State.advanceBy_of_rest hread
    rw [← hpassed]
    exact hs.extended (State.extends_advanceBy _ s)
  have hkind : passed.kind = .star := hstar
  have hquote : passed.kind ≠ q.kind := by
    rw [hkind]
    cases q <;> decide
  have hsplice := splice_of_quote hplaced hdepth rfl hstar hlast
  rw [hposition] at hsplice
  -- After the value comes the end of the file.
  refine hwords.trans ?_
  rw [loop_of_again (quotedRound_advances outermost q.kind first.span)
      (quotedRound_of_splice hquote hkind hsplice),
    loop_of_done (quotedRound_of_isEof q.kind_ne_endfile rfl), hposition, Content.finish_add,
    Content.finish_words]
  rfl

/-! ### Literals up to the end of the file -/

/-- Words between quotes, and nothing after them. -/
theorem outermost_closes {q : Quote} {us : List Token} {first last : Token} (hs : s.Placed)
    (hdepth : s.depth < nestingLimit) (hrest : s.rest = first :: (us ++ [last]))
    (hfirst : first.kind = q.kind) (hgoes : GoesWithWords q.kind us)
    (hlast : last.kind = q.kind) (multiline binary : Bool) :
    outermost.expression multiline binary s =
      (some (.string ⟨s.position, s.finish⟩ q
          (TextPart.ofWords (s.position.advance first.text) (Token.joined us))),
        { s with rest := [], cursor := s.cursor + s.rest.length }) := by
  have hkind : s.kind = q.kind := by rwa [State.kind, State.current_of_rest hrest]
  have hinner : State.Placed { s with depth := s.depth + 1 } := { hs with }
  have hlength : s.rest.length = us.length + 2 := by simp [hrest]
  rw [outermost_literal hdepth hkind (quoted_closes hinner hrest hgoes hlast) rfl, hlength]
  rfl

/-- Words and a star between quotes, and nothing after them. -/
theorem outermost_of_star {q : Quote} {us : List Token} {first star last : Token} (hs : s.Placed)
    (hdepth : s.depth + 1 < nestingLimit) (hrest : s.rest = first :: (us ++ [star, last]))
    (hfirst : first.kind = q.kind) (hgoes : GoesWithWords q.kind us) (hstar : star.kind = .star)
    (hlast : last.kind = q.kind) (multiline binary : Bool) :
    let opened := s.position.advance first.text
    let here := opened.advance (Token.joined us)
    let after := here.advance star.text
    outermost.expression multiline binary s =
      (some (.string ⟨s.position, s.finish⟩ q (TextPart.ofWords opened (Token.joined us) ++
          [.splice ⟨here, s.finish⟩ (.string ⟨after, s.finish⟩ q [])])),
        { s with rest := [], cursor := s.cursor + s.rest.length,
                 reports := .of .unterminatedString ⟨s.position, opened⟩ [] ::
                   .of .unterminatedString ⟨after, s.finish⟩ [] :: s.reports }) := by
  intro opened here after
  have hkind : s.kind = q.kind := by rwa [State.kind, State.current_of_rest hrest]
  have hinner : State.Placed { s with depth := s.depth + 1 } := { hs with }
  have hlength : s.rest.length = us.length + 3 := by simp [hrest]
  have hspan : first.span = ⟨s.position, opened⟩ := by
    have hstart : s.position = first.start := by rw [State.position, State.current_of_rest hrest]
    rw [Token.span, Token.stop, ← hstart]
  rw [outermost_literal (Nat.lt_of_succ_lt hdepth) hkind
    (quoted_of_star hinner hdepth hrest hgoes hstar hlast) rfl, hlength, hspan]
  rfl

end Grammar

open Grammar

section

variable {quote : Quote} {text words : String} (indentSize : Nat) (multiline binary : Bool)

/-- A text without values is read as it stands, unless it ends in a star. -/
theorem literal_of_plain (h : PlainQuoted quote text) (hend : text.toList.getLast? ≠ some '*') :
    let s := State.ofText (quote.spelling ++ text ++ quote.spelling) indentSize
    outermost.expression multiline binary s =
      (some (.string ⟨.zero, s.finish⟩ quote (TextPart.ofWords (Position.zero.advance quote.spelling) text)),
        { s with rest := [], cursor := s.cursor + s.rest.length }) := by
  intro s
  obtain ⟨first, us, last, hrest, ⟨hfirst, hopen⟩, ⟨hlast, -⟩, hjoined⟩ :=
    State.rest_ofText_quoted quote text indentSize
  have hs : s.Placed := State.placed_ofText _ _
  have hzero : s.position = .zero := State.position_ofText _ _
  have hdepth : s.depth < nestingLimit := by
    change 0 < nestingLimit
    decide
  have hgoes : GoesWithWords quote.kind us := by
    refine goesWithWords_of_plain (State.between_subset hrest) ?_ ?_ <;> rwa [hjoined]
  rw [outermost_closes hs hdepth hrest hfirst hgoes hlast, hzero, hopen, hjoined]

/-- After a last star the closing quote is taken for the start of a value. -/
theorem literal_of_star (h : PlainQuoted quote (words ++ "*")) :
    let s := State.ofText (quote.spelling ++ (words ++ "*") ++ quote.spelling) indentSize
    let opened := Position.zero.advance quote.spelling
    let after := opened.advance (words ++ "*")
    outermost.expression multiline binary s =
      (some (.string ⟨.zero, s.finish⟩ quote (TextPart.ofWords opened words ++
          [.splice ⟨opened.advance words, s.finish⟩ (.string ⟨after, s.finish⟩ quote [])])),
        { s with rest := [], cursor := s.cursor + s.rest.length,
                 reports := .of .unterminatedString ⟨.zero, opened⟩ [] ::
                   .of .unterminatedString ⟨after, s.finish⟩ [] :: s.reports }) := by
  intro s opened after
  obtain ⟨first, ts, last, hrest, ⟨hfirst, hopen⟩, ⟨hlast, -⟩, hjoined⟩ :=
    State.rest_ofText_quoted quote (words ++ "*") indentSize
  have hs : s.Placed := State.placed_ofText _ _
  have hzero : s.position = .zero := State.position_ofText _ _
  have hdepth : s.depth + 1 < nestingLimit := by
    change 0 + 1 < nestingLimit
    decide
  have hsubset := State.between_subset hrest
  have hstar : TokenKind.star.IsSign '*' := by decide
  obtain ⟨us, star, rfl, hkind, htext, hwords⟩ := State.joined_eq_concat hstar hsubset
    (by rw [hjoined, String.toList_append]; rfl)
  have hus : Token.joined us = words := String.ext hwords
  have hgoes : GoesWithWords quote.kind us := by
    refine goesWithWords_of_plain (fun u hu => hsubset (List.mem_append_left _ hu)) ?_ ?_
    · rw [hus]
      exact h.of_append_left
    · rw [hus]
      exact h.getLast?_ne_star
  have hsign : star.text = "*" := String.ext htext
  rw [List.append_assoc] at hrest
  have hafter : ((Position.zero.advance quote.spelling).advance words).advance "*" = after :=
    (Position.advance_append ..).symm
  rw [outermost_of_star hs hdepth hrest hfirst hgoes hkind hlast, hzero, hopen, hus, hsign, hafter]

/-- **Quoted text without values is closed by its quote just if it does not end in a star.** Then it is read
as it stands: its only part is the text, if there is any, all tokens are read, and nothing is reported. After
a last star the quote is taken for the start of a value, and two texts are reported that are not closed. -/
theorem plain_literal_closes_iff (h : PlainQuoted quote text) :
    let s := State.ofText (quote.spelling ++ text ++ quote.spelling) indentSize
    let opened := Position.zero.advance quote.spelling
    let passed : State := { s with rest := [], cursor := s.cursor + s.rest.length }
    let read := outermost.expression multiline binary s
    (read = (some (.string ⟨.zero, s.finish⟩ quote (TextPart.ofWords opened text)), passed) ↔
        text.toList.getLast? ≠ some '*') ∧
      ∀ words, text = words ++ "*" →
        read =
          (some (.string ⟨.zero, s.finish⟩ quote (TextPart.ofWords opened words ++
              [.splice ⟨opened.advance words, s.finish⟩ (.string ⟨opened.advance text, s.finish⟩ quote [])])),
            { passed with
              reports := .of .unterminatedString ⟨.zero, opened⟩ [] ::
                .of .unterminatedString ⟨opened.advance text, s.finish⟩ [] :: s.reports }) := by
  intro s opened passed read
  refine ⟨⟨fun hread hend => ?_, literal_of_plain indentSize multiline binary h⟩, ?_⟩
  · -- The two ways of reading differ in what is reported.
    obtain ⟨cs, hcs⟩ := List.getLast?_eq_some_iff.mp hend
    obtain rfl : text = String.ofList cs ++ "*" := String.ext (by simp [hcs])
    have hreports : s.reports.length = s.reports.length + 2 := congrArg (fun r => r.2.reports.length)
      (hread.symm.trans (literal_of_star indentSize multiline binary h))
    omega
  · rintro words rfl
    exact literal_of_star indentSize multiline binary h

end

/-- A star before a blank leaves the text as it is; one before the closing quote takes the quote with it. -/
theorem plain_literal_closes_iff_stars :
    (PlainQuoted .double "2 * 3" ∧
      let s := State.ofText (Quote.spelling .double ++ "2 * 3" ++ Quote.spelling .double) 2
      outermost.expression false true s =
        (some (.string ⟨.zero, s.finish⟩ .double
            (TextPart.ofWords (Position.zero.advance (Quote.spelling .double)) "2 * 3")),
          { s with rest := [], cursor := s.cursor + s.rest.length })) ∧
      PlainQuoted .single "a*" ∧
      let s := State.ofText (Quote.spelling .single ++ "a*" ++ Quote.spelling .single) 2
      (outermost.expression false true s).2.reports.map (fun d => (d.span.start.offset, d.span.stop.offset)) =
        [(0, 1), (3, 4)] := by
  have hblank : PlainQuoted .double "2 * 3" := ⟨by decide, by decide, by decide, by decide⟩
  have hlast : PlainQuoted .single "a*" := ⟨by decide, by decide, by decide, by decide⟩
  refine ⟨⟨hblank, (plain_literal_closes_iff 2 false true hblank).1.mpr (by decide)⟩, hlast, ?_⟩
  have hread := (plain_literal_closes_iff 2 false true hlast).2 "a" rfl
  dsimp only
  rw [hread]
  decide +kernel

end Story
