import Mathlib.Data.List.Pairwise
import Story.Proofs.Lines
import Story.Proofs.Quotes
import Story.Proofs.Slices

/-!
# Nothing of a text is lost

The words of a text line and of a quoted text are read into parts, token by token: a chunk is pending while
tokens are added to it, and a value ends it. Here it is shown that this leaves out nothing but backslashes,
and which ones.

* `TextPart.IsMadeOf` — the tokens that a part is made of: its span stretches over them, and its words are
  theirs;
* `Divides` — a list of tokens, one part after the other. Between two parts there is nothing, or a
  backslash that is dropped since it escapes the token after it;
* `Grammar.textContent_divides`, `Grammar.quoted_divides` — reading does this. The invariant of both loops is
  that the text so far would be divided if the pending chunk ended here (`Grammar.Content.Covers`);
* `Lossless` — what follows for the parts, in terms of their spans alone;
* `parseModule_texts_lossless` — so it is with every text line, string, quoted key and quoted name of a story.

Which backslashes escape something is the one difference between the two kinds of text: in a line all do, and
between quotes only those before a star (`TextStyle.Escapes`).
-/

namespace Story

open Story.Parser Story.Grammar

/-! ### Parts and their tokens -/

/-- Where a text stands. -/
inductive TextStyle where
  /-- In a line of its own. -/
  | line
  /-- Between quotes. -/
  | quoted

/-- A backslash before the token escapes it, and is dropped. -/
def TextStyle.Escapes : TextStyle → Token → Prop
  | .line, _ => True
  | .quoted, t => t.kind = .star

namespace TextPart

/-- The text that a part covers. -/
def span : TextPart → Span
  | .chunk span _ | .splice span _ => span

/-- **The part is made of these tokens:** there is at least one, the span stretches from the first to the
last of them, and the words, if it is a chunk, are theirs. -/
structure IsMadeOf (ts : List Token) (p : TextPart) : Prop where
  nonempty : ts ≠ []
  path : Token.Path p.span.start ts p.span.stop
  words : p.WordsSatisfy (· = Token.joined ts)

variable {start here there : Position} {text : String} {us vs : List Token}

/-- A chunk that goes on over more tokens. -/
theorem IsMadeOf.extend (h : (chunk ⟨start, here⟩ text).IsMadeOf us) (hvs : Token.Path here vs there) :
    (chunk ⟨start, there⟩ (text ++ Token.joined vs)).IsMadeOf (us ++ vs) where
  nonempty := fun hnil => h.nonempty (List.append_eq_nil_iff.mp hnil).1
  path := Token.path_append.mpr ⟨here, h.path, hvs⟩
  words := by
    have htext : text = Token.joined us := h.words
    change text ++ Token.joined vs = Token.joined (us ++ vs)
    rw [Token.joined_append, htext]

end TextPart

/-- **The tokens are divided into parts,** the latest part first. Between one part and the next there is
nothing, or a backslash that escapes the first token of a chunk. -/
inductive Divides (style : TextStyle) : List Token → List TextPart → Prop where
  /-- No text at all. -/
  | nil : Divides style [] []
  /-- One more part, right after what is before it. -/
  | part {ts us : List Token} {ps : List TextPart} {p : TextPart} (h : Divides style ts ps)
      (hp : p.IsMadeOf us) : Divides style (ts ++ us) (p :: ps)
  /-- One more chunk, after a backslash. -/
  | escape {ts us : List Token} {ps : List TextPart} {slash u : Token} {span : Span} {text : String}
      (h : Divides style ts ps) (hslash : slash.kind = .backslash) (hu : style.Escapes u)
      (hp : (TextPart.chunk span text).IsMadeOf (u :: us)) :
      Divides style (ts ++ slash :: u :: us) (.chunk span text :: ps)

/-- **All tokens of a text are divided into its parts,** which are in order here. A backslash at the end of a
line has nothing to escape. -/
inductive DividesAll : TextStyle → List Token → List TextPart → Prop where
  /-- The parts go up to the end. -/
  | whole {style : TextStyle} {ts : List Token} {parts : List TextPart}
      (h : Divides style ts parts.reverse) : DividesAll style ts parts
  /-- There is a backslash after them. -/
  | slash {ts : List Token} {parts : List TextPart} {slash : Token} (h : Divides .line ts parts.reverse)
      (hslash : slash.kind = .backslash) : DividesAll .line (ts ++ [slash]) parts

/-! ### Reading -/

namespace State.Placed

variable {s : State}

/-- The current token, as a list: there is none at the end of the file. -/
theorem read_current (hs : s.Placed) :
    ∃ ts, s.rest = ts ++ s.advance.rest ∧ s.current.text = Token.joined ts ∧
      Token.Path s.position ts s.advance.position ∧ (s.rest ≠ [] → ts = [s.current]) := by
  obtain ⟨ts, hts, -, hpath⟩ := hs.path_read (extends_advance s)
  refine ⟨ts, hts, ?_⟩
  rcases hr : s.rest with _ | ⟨t, rest⟩
  · -- At the end of the file nothing is read.
    have hnil : ts = [] := (List.append_eq_nil_iff.mp (hts.symm.trans hr)).1
    subst hnil
    exact ⟨by simp [current, hr, Token.endfile, Token.joined], hpath, fun h => absurd rfl h⟩
  · have hone : ts = [t] := by
      have hrest : [t] ++ s.advance.rest = ts ++ s.advance.rest := by
        rw [← hts, hr, advance, hr]
        rfl
      exact (List.append_cancel_right hrest).symm
    subst hone
    exact ⟨by simp [current, hr, Token.joined], hpath, fun _ => by simp [current, hr]⟩

end State.Placed

namespace Divides

variable {style : TextStyle} {ts vs : List Token} {ps : List TextPart}

/-- A text goes on with more tokens in its last chunk, however that chunk started. -/
theorem extend {start here there : Position} {text : String}
    (h : Divides style ts (.chunk ⟨start, here⟩ text :: ps)) (hvs : Token.Path here vs there) :
    Divides style (ts ++ vs) (.chunk ⟨start, there⟩ (text ++ Token.joined vs) :: ps) := by
  cases h with
  | part h hp =>
    rw [List.append_assoc]
    exact .part h (hp.extend hvs)
  | escape h hslash hu hp =>
    rw [List.append_assoc, List.cons_append, List.cons_append]
    exact .escape h hslash hu (hp.extend hvs)

end Divides

namespace Grammar

variable {style : TextStyle} {g : Nested} {s t t' : State} {c : Content}

/-- **What has been read of a text,** from `s` up to `t`, is divided into parts, if the pending chunk is taken
to end here. -/
def Content.Covers (style : TextStyle) (s t : State) (c : Content) : Prop :=
  ∃ ts, s.rest = ts ++ t.rest ∧ Divides style ts (c.flush t.position).parts

namespace Content

theorem flush_of_pending {stop : Position} (h : c.pending = none) : c.flush stop = c := by
  rw [flush, h]

namespace Covers

/-- Before the text nothing has been read. -/
theorem empty (s : State) : Content.Covers style s s .empty := ⟨[], rfl, .nil⟩

/-- Tokens that go with the words. -/
theorem extend (h : c.Covers style s t) {vs : List Token} (hvs : t.rest = vs ++ t'.rest)
    (hpath : Token.Path t.position vs t'.position) (hne : vs ≠ []) :
    (c.extend t.position (Token.joined vs)).Covers style s t' := by
  obtain ⟨ts, hts, hdivides⟩ := h
  refine ⟨ts ++ vs, by rw [hts, hvs, List.append_assoc], ?_⟩
  rcases hp : c.pending with _ | ⟨start, text⟩
  · -- They start a chunk.
    rw [flush, hp] at hdivides
    rw [Content.extend, hp]
    exact .part hdivides ⟨hne, hpath, rfl⟩
  · -- They are added to the pending one.
    rw [flush, hp] at hdivides
    rw [Content.extend, hp]
    exact hdivides.extend hpath

/-- A part after all chunks are finished. -/
theorem add (h : c.Covers style s t) {p : TextPart} {us : List Token} (hus : t.rest = us ++ t'.rest)
    (hp : p.IsMadeOf us) : ((c.flush t.position).add p).Covers style s t' := by
  obtain ⟨ts, hts, hdivides⟩ := h
  refine ⟨ts ++ us, by rw [hts, hus, List.append_assoc], ?_⟩
  have hpending : ((c.flush t.position).add p).pending = none := flush_pending c _
  rw [flush_of_pending hpending]
  exact .part hdivides hp

/-- A backslash that is dropped, and the token that it escapes. -/
theorem escape (h : c.Covers style s t) (ht : t.Placed) (hslash : t.kind = .backslash)
    (hnext : t.advance.rest ≠ []) (hu : style.Escapes t.advance.current) :
    ((c.flush t.position).extend t.advance.position t.advance.current.text).Covers style s
      t.advance.advance := by
  obtain ⟨ts, hts, hdivides⟩ := h
  obtain ⟨us, hus, htext, hpath, hone⟩ := (ht.extended (State.extends_advance t)).read_current
  obtain rfl := hone hnext
  refine ⟨ts ++ [t.current, t.advance.current], ?_, ?_⟩
  · rw [hts, State.rest_eq_of_kind hslash (by decide), hus]
    simp
  · rw [Content.extend, flush_pending]
    exact .escape hdivides hslash hu ⟨List.cons_ne_nil _ _, hpath, htext⟩

theorem finish (h : c.Covers style s t) :
    ∃ ts, s.rest = ts ++ t.rest ∧ DividesAll style ts (c.finish t.position) := by
  obtain ⟨ts, hts, hdivides⟩ := h
  refine ⟨ts, hts, .whole ?_⟩
  rwa [Content.finish, List.reverse_reverse]

end Covers

end Content

/-- A value is made of what was read for it, with its star. -/
theorem splice_isMadeOf {part : TextPart} (hs : s.Placed) (h : splice g s = (some part, t)) :
    ∃ us, s.rest = us ++ t.rest ∧ part.IsMadeOf us := by
  obtain ⟨us, hus, hlength, hpath⟩ := hs.path_read (extends_of_eq h)
  have hlt : s.cursor < t.cursor := splice_consumes g _ _ h
  -- A value has at least its star.
  have hne : us ≠ [] := by
    rintro rfl
    rw [List.length_nil] at hlength
    omega
  refine ⟨us, hus, ?_⟩
  unfold splice at h
  obtain ⟨star, _, hstar, h⟩ := bind_eq_some.mp h
  obtain ⟨-, rfl, rfl⟩ := eat_eq_some.mp hstar
  obtain ⟨_, _, -, h⟩ := bind_eq_some.mp h
  obtain ⟨value, _, -, h⟩ := bind_eq_some.mp h
  obtain ⟨_, _, ⟨⟩, h⟩ := bind_eq_some.mp h
  cases h
  exact ⟨hne, hpath, trivial⟩

/-- One token that goes with the words. -/
theorem Content.Covers.advance (h : c.Covers style s t) (ht : t.Placed) (hne : t.rest ≠ []) :
    (c.extend t.position t.current.text).Covers style s t.advance := by
  obtain ⟨us, hus, htext, hpath, hone⟩ := ht.read_current
  rw [htext]
  exact h.extend hus hpath (by simp [hone hne])

/-- A backslash at the end of the line, which is the last thing of the text. -/
structure Content.Trails (s t : State) (c : Content) : Prop where
  lineEnd : t.isLineEnd = true
  pending : c.pending = none
  divides : ∃ ts slash, s.rest = ts ++ slash :: t.rest ∧ slash.kind = .backslash ∧ Divides .line ts c.parts

theorem rest_ne_nil_of_not_isLineEnd (h : s.isLineEnd = false) : s.rest ≠ [] :=
  List.ne_nil_of_mem (State.current_mem_rest h)

/-- **A text line is divided into its parts,** up to where the line ends. -/
theorem textContent_divides (hs : s.Placed) {parts : List TextPart}
    (h : textContent g s = (some parts, t)) :
    t.isLineEnd = true ∧ ∃ ts, s.rest = ts ++ t.rest ∧ DividesAll .line ts parts := by
  refine repeated_induction (I := fun c u => c.Covers .line s u ∨ c.Trails s u)
    (P := fun parts u => u.isLineEnd = true ∧ ∃ ts, s.rest = ts ++ u.rest ∧ DividesAll .line ts parts)
    ?again ?done hs (.inl (.empty s)) h
  case again =>
    intro c u c' u' hu hc hround
    -- After a backslash at the end of the line there is no other round.
    have hgoesOn (hnot : u.isLineEnd = false) : c.Covers .line s u := by
      refine hc.resolve_right fun htrails => ?_
      rw [htrails.lineEnd] at hnot
      cases hnot
    obtain ⟨-, -, ⟨⟩⟩ | ⟨hslash, hend, rfl, ⟨⟩⟩ | ⟨hslash, hend, rfl, ⟨⟩⟩ | ⟨hstar, part, hpart, ⟨⟩⟩ |
      ⟨hend, -, -, rfl, ⟨⟩⟩ := textRound_cases hround
    · have hnot : u.isLineEnd = false := by rw [State.isLineEnd, hslash]; rfl
      obtain ⟨ts, hts, hdivides⟩ := hgoesOn hnot
      refine .inr ⟨hend, Content.flush_pending c _, ts, u.current, ?_, hslash, hdivides⟩
      rw [hts, State.rest_eq_of_kind hslash (by decide)]
    · have hnot : u.isLineEnd = false := by rw [State.isLineEnd, hslash]; rfl
      exact .inl ((hgoesOn hnot).escape hu hslash (rest_ne_nil_of_not_isLineEnd hend) trivial)
    · have hnot : u.isLineEnd = false := by rw [State.isLineEnd, hstar]; rfl
      obtain ⟨us, hus, hmade⟩ := splice_isMadeOf hu hpart
      exact .inl ((hgoesOn hnot).add hus hmade)
    · exact .inl ((hgoesOn hend).advance hu (rest_ne_nil_of_not_isLineEnd hend))
  case done =>
    intro c u parts u' hu hc hround
    obtain ⟨hend, rfl, ⟨⟩⟩ | ⟨-, -, -, ⟨⟩⟩ | ⟨-, -, -, ⟨⟩⟩ | ⟨-, _, -, ⟨⟩⟩ | ⟨-, -, -, -, ⟨⟩⟩ :=
      textRound_cases hround
    refine ⟨hend, ?_⟩
    obtain hcovers | ⟨-, hpending, ts, slash, hts, hslash, hdivides⟩ := hc
    · exact hcovers.finish
    · refine ⟨ts ++ [slash], by rw [hts, List.append_assoc, List.singleton_append], .slash ?_ hslash⟩
      rwa [Content.finish, Content.flush_of_pending hpending, List.reverse_reverse]

/-- **What ends a quoted text:** the closing quote, which is read; or the end of the file, or of the line
unless it is between back-ticks. -/
def QuoteEnds (quote : TokenKind) (u t : State) : Prop :=
  u.kind = quote ∧ t = u.advance ∨
    (u.isEof = true ∨ u.kind = .endline ∧ quote ≠ .backtick) ∧ t.rest = u.rest ∧ t.position = u.position

/-- **A quoted text is divided into its parts,** from after the opening quote to its end. -/
theorem quoted_divides (hs : s.Placed) {quote : TokenKind} {r : List TextPart × Option Span}
    (h : quoted g quote s = (some r, t)) :
    ∃ ts u, s.advance.Extends u ∧ s.advance.rest = ts ++ u.rest ∧ DividesAll .quoted ts r.1 ∧
      QuoteEnds quote u t := by
  obtain ⟨_, _, ⟨⟩, h⟩ := bind_eq_some.mp h
  have hopened : s.advance.Placed := hs.extended (State.extends_advance s)
  refine repeated_induction
    (I := fun c u => s.advance.Extends u ∧ c.Covers .quoted s.advance u)
    (P := fun r t => ∃ ts u, s.advance.Extends u ∧ s.advance.rest = ts ++ u.rest ∧
      DividesAll .quoted ts r.1 ∧ QuoteEnds quote u t)
    ?again ?done hopened ⟨.refl _, .empty _⟩ h
  case again =>
    intro c u c' u' hu hc hround
    refine ⟨hc.1.trans (extends_of_eq hround), ?_⟩
    have hne : u.rest ≠ [] := by
      -- A round that goes on has read something.
      have hlt : u.cursor < u'.cursor := quotedRound_advances g quote _ c u c' u' hround
      have hlength := length_lt_of_cursor_lt (extends_of_eq hround) hlt
      exact List.ne_nil_of_length_pos (Nat.lt_of_le_of_lt (Nat.zero_le _) hlength)
    obtain ⟨-, -, ⟨⟩⟩ | ⟨-, -, ⟨⟩⟩ | ⟨hslash, hstar, rfl, ⟨⟩⟩ | ⟨-, -, rfl, ⟨⟩⟩ | ⟨-, part, hpart, ⟨⟩⟩ |
      ⟨-, -, -, rfl, ⟨⟩⟩ := quotedRound_cases hround
    · exact hc.2.escape hu hslash (State.rest_ne_nil_of_kind_eq hstar (by decide)) hstar
    · -- The backslash is kept, with the token after it if there is one.
      obtain ⟨us, hus, htext, hpath, hone⟩ := hu.read_current
      obtain ⟨vs, hvs, htext', hpath', -⟩ := (hu.extended (State.extends_advance u)).read_current
      rw [htext, htext', ← Token.joined_append]
      refine hc.2.extend ?_ (Token.path_append.mpr ⟨_, hpath, hpath'⟩) (by simp [hone hne])
      rw [hus, hvs, List.append_assoc]
    · obtain ⟨us, hus, hmade⟩ := splice_isMadeOf hu hpart
      exact hc.2.add hus hmade
    · exact hc.2.advance hu hne
  case done =>
    intro c u r u' hu hc hround
    obtain ⟨ts, hts, hdivides⟩ := hc.2.finish
    obtain ⟨hquote, rfl, ⟨⟩⟩ | ⟨hend, rfl, ⟨⟩⟩ | ⟨-, -, -, ⟨⟩⟩ | ⟨-, -, -, ⟨⟩⟩ | ⟨-, _, -, ⟨⟩⟩ |
      ⟨-, -, -, -, ⟨⟩⟩ := quotedRound_cases hround
    · exact ⟨ts, u, hc.1, hts, hdivides, .inl ⟨hquote, rfl⟩⟩
    · exact ⟨ts, u, hc.1, hts, hdivides, .inr ⟨hend, rfl, rfl⟩⟩

end Grammar

/-! ### Spans -/

namespace Span

variable {span : Span} {t : Token}

theorem not_covers_of_stop_le (ht : t.text ≠ "") (h : span.stop.offset ≤ t.start.offset) :
    ¬span.Covers t := by
  intro hcovers
  have hlt := Token.offset_lt ht
  have hle := hcovers.2
  omega

theorem not_covers_of_le_start (ht : t.text ≠ "") (h : t.stop.offset ≤ span.start.offset) :
    ¬span.Covers t := by
  intro hcovers
  have hlt := Token.offset_lt ht
  have hle := hcovers.1
  omega

end Span

namespace TextPart.IsMadeOf

variable {p : TextPart} {us : List Token} {m n : Position}

theorem span_eq (h : p.IsMadeOf us) (hus : Token.Path m us n) : p.span = ⟨m, n⟩ := by
  have hstart : p.span.start = m := h.path.start_eq hus h.nonempty
  have hpath := h.path
  rw [hstart] at hpath
  rw [← hstart, ← hpath.stop_eq hus]

theorem covers (h : p.IsMadeOf us) {t : Token} (ht : t ∈ us) : p.span.Covers t := h.path.covers ht

theorem offset_lt (h : p.IsMadeOf us) (hne : ∀ t ∈ us, t.text ≠ "") :
    p.span.start.offset < p.span.stop.offset := by
  obtain ⟨t, ht⟩ := List.exists_mem_of_ne_nil us h.nonempty
  calc
    p.span.start.offset ≤ t.start.offset := (h.covers ht).1
    _ < t.stop.offset := Token.offset_lt (hne t ht)
    _ ≤ p.span.stop.offset := (h.covers ht).2

end TextPart.IsMadeOf

/-- **A backslash that is dropped since it escapes what is after it:** the token after it is one that it can
escape, and a chunk starts there. -/
structure IsEscape (style : TextStyle) (ts : List Token) (ps : List TextPart) (t : Token) : Prop where
  kind : t.kind = .backslash
  next : ∃ u ∈ ts, u.start = t.stop ∧ style.Escapes u ∧ ∃ stop text, .chunk ⟨u.start, stop⟩ text ∈ ps

theorem IsEscape.mono {style : TextStyle} {ts ts' : List Token} {ps ps' : List TextPart} {t : Token}
    (h : IsEscape style ts ps t) (hts : ts ⊆ ts') (hps : ps ⊆ ps') : IsEscape style ts' ps' t := by
  obtain ⟨u, hu, hstart, hescapes, stop, text, hchunk⟩ := h.next
  exact ⟨h.kind, u, hts hu, hstart, hescapes, stop, text, hps hchunk⟩

namespace Divides

variable {style : TextStyle} {ts : List Token} {ps : List TextPart} {p q : Position}

/-- Each part is made of a stretch of the tokens. -/
theorem made (h : Divides style ts ps) :
    ∀ part ∈ ps, ∃ xs us ys, ts = xs ++ (us ++ ys) ∧ part.IsMadeOf us := by
  -- What comes later is added to the tokens after the stretch.
  have later {ts vs : List Token} {part : TextPart}
      (h : ∃ xs us ys, ts = xs ++ (us ++ ys) ∧ part.IsMadeOf us) :
      ∃ xs us ys, ts ++ vs = xs ++ (us ++ ys) ∧ part.IsMadeOf us := by
    obtain ⟨xs, us, ys, rfl, hmade⟩ := h
    exact ⟨xs, us, ys ++ vs, by simp only [List.append_assoc], hmade⟩
  induction h with
  | nil => exact List.forall_mem_nil _
  | part h hp ih =>
    exact List.forall_mem_cons.mpr ⟨⟨_, _, [], by rw [List.append_nil], hp⟩, fun _ hmem => later (ih _ hmem)⟩
  | @escape ts us ps slash u span text h _ _ hp ih =>
    refine List.forall_mem_cons.mpr ⟨⟨ts ++ [slash], u :: us, [], ?_, hp⟩, fun _ hmem => later (ih _ hmem)⟩
    rw [List.append_nil, List.append_assoc, List.singleton_append]

theorem within (h : Divides style ts ps) (hpath : Token.Path p ts q) {part : TextPart} (hpart : part ∈ ps) :
    p.offset ≤ part.span.start.offset ∧ part.span.stop.offset ≤ q.offset := by
  obtain ⟨xs, us, ys, rfl, hmade⟩ := h.made part hpart
  obtain ⟨m, hxs, hrest⟩ := Token.path_append.mp hpath
  obtain ⟨n, hus, hys⟩ := Token.path_append.mp hrest
  rw [hmade.span_eq hus]
  exact ⟨hxs.offset_le, hys.offset_le⟩

/-- Each part starts where an earlier one stops, or later. -/
theorem increasing (h : Divides style ts ps) (hpath : Token.Path p ts q) :
    ps.Pairwise fun later earlier => earlier.span.stop.offset ≤ later.span.start.offset := by
  induction h generalizing q with
  | nil => exact .nil
  | part h hp ih =>
    -- What comes before a part stops where the part starts.
    obtain ⟨m, hts, hus⟩ := Token.path_append.mp hpath
    refine List.pairwise_cons.mpr ⟨fun earlier hmem => ?_, ih hts⟩
    rw [hp.span_eq hus]
    exact (h.within hts hmem).2
  -- The backslash lies between the part before it and the part that it starts.
  | @escape ts us ps slash u span text h _ _ hp ih =>
    obtain ⟨m, hts, rfl, hus⟩ := Token.path_append.mp hpath
    refine List.pairwise_cons.mpr ⟨fun earlier hmem => ?_, ih hts⟩
    rw [hp.span_eq hus]
    calc
      earlier.span.stop.offset ≤ slash.start.offset := (h.within hts hmem).2
      _ ≤ slash.stop.offset := by rw [Token.offset_stop]; exact Nat.le_add_right _ _

/-- **Every token is in a part, or it is a backslash that escapes the token after it** and is in none. -/
theorem accounts (h : Divides style ts ps) (hpath : Token.Path p ts q) (hne : ∀ t ∈ ts, t.text ≠ "") :
    ∀ t ∈ ts, (∃ part ∈ ps, part.span.Covers t) ∨
      (∀ part ∈ ps, ¬part.span.Covers t) ∧ IsEscape style ts ps t := by
  induction h generalizing q with
  | nil => exact List.forall_mem_nil _
  | part h hp ih =>
    obtain ⟨m, hts, hus⟩ := Token.path_append.mp hpath
    obtain ⟨hne, -⟩ := List.forall_mem_append.mp hne
    intro t ht
    obtain ht | ht := List.mem_append.mp ht
    · obtain ⟨part, hpart, hcovers⟩ | ⟨hnone, hescape⟩ := ih hts hne t ht
      · exact .inl ⟨part, List.mem_cons_of_mem _ hpart, hcovers⟩
      · -- The new part starts after the token.
        refine .inr ⟨List.forall_mem_cons.mpr ⟨?_, hnone⟩,
          hescape.mono (List.subset_append_left _ _) (List.subset_cons_self _ _)⟩
        rw [hp.span_eq hus]
        exact Span.not_covers_of_le_start (hne t ht) (hts.covers ht).2
    · exact .inl ⟨_, List.mem_cons_self, hp.covers ht⟩
  | @escape ts us ps slash u span text h hslash hu hp ih =>
    obtain ⟨m, hts, rfl, hus⟩ := Token.path_append.mp hpath
    obtain ⟨hne, hne'⟩ := List.forall_mem_append.mp hne
    have hspan : span = ⟨slash.stop, q⟩ := hp.span_eq hus
    have hstop : slash.start.offset ≤ slash.stop.offset := by
      rw [Token.offset_stop]
      exact Nat.le_add_right _ _
    intro t ht
    obtain ht | ht := List.mem_append.mp ht
    · obtain ⟨part, hpart, hcovers⟩ | ⟨hnone, hescape⟩ := ih hts hne t ht
      · exact .inl ⟨part, List.mem_cons_of_mem _ hpart, hcovers⟩
      · refine .inr ⟨List.forall_mem_cons.mpr ⟨?_, hnone⟩,
          hescape.mono (List.subset_append_left _ _) (List.subset_cons_self _ _)⟩
        rw [hp.span_eq hus]
        exact Span.not_covers_of_le_start (hne t ht) (Nat.le_trans (hts.covers ht).2 hstop)
    obtain rfl | ht := List.mem_cons.mp ht
    · -- The backslash is after all parts before it, and before the chunk.
      have htext : t.text ≠ "" := hne' t List.mem_cons_self
      refine .inr ⟨List.forall_mem_cons.mpr ⟨?_, fun part hpart => ?_⟩, hslash, u, ?_, hus.1, hu, q, text, ?_⟩
      · rw [hp.span_eq hus]
        exact Span.not_covers_of_le_start htext (Nat.le_refl _)
      · exact Span.not_covers_of_stop_le htext (h.within hts hpart).2
      · exact List.mem_append_right _ (List.mem_cons_of_mem _ List.mem_cons_self)
      · rw [hspan, hus.1]
        exact List.mem_cons_self
    · exact .inl ⟨_, List.mem_cons_self, hp.covers ht⟩

end Divides

/-! ### Texts without loss -/

/-- The parts of a text that stands at `region`: they are not empty, one comes after the other, they do not
leave the region, and the words of a chunk are what stands in the source there. -/
structure InOrder (source : String) (region : Span) (parts : List TextPart) : Prop where
  nonempty : ∀ p ∈ parts, p.span.start.offset < p.span.stop.offset
  increasing : parts.Pairwise fun p next => p.span.stop.offset ≤ next.span.start.offset
  within : ∀ p ∈ parts, region.start.offset ≤ p.span.start.offset ∧ p.span.stop.offset ≤ region.stop.offset
  words : ∀ span text, .chunk span text ∈ parts → span.IsSlice source ∧ span.slice source = text

/-- **A text without loss.** Its tokens stretch over the region, its parts are in order, and each of its
tokens is in exactly one part. Left out are only backslashes: those that escape the token after them and, in
a line, one at the very end. -/
structure Lossless (source : String) (style : TextStyle) (region : Span) (content : List Token)
    (parts : List TextPart) : Prop extends InOrder source region parts where
  path : Token.Path region.start content region.stop
  accounted : ∀ t ∈ content, (∃! p, p ∈ parts ∧ p.span.Covers t) ∨
    (∀ p ∈ parts, ¬p.span.Covers t) ∧
      (IsEscape style content parts t ∨ style = .line ∧ t.kind = .backslash ∧ t.stop = region.stop)

variable {source : String} {style : TextStyle} {parts : List TextPart} {ts : List Token}

/-- Two parts that cover the same token are the same. -/
theorem InOrder.eq_of_covers {region : Span} (h : InOrder source region parts) {t : Token}
    (ht : t.text ≠ "") {p p' : TextPart} (hp : p ∈ parts) (hp' : p' ∈ parts) (hc : p.span.Covers t)
    (hc' : p'.span.Covers t) : p = p' := by
  let Apart (p p' : TextPart) : Prop :=
    p.span.stop.offset ≤ p'.span.start.offset ∨ p'.span.stop.offset ≤ p.span.start.offset
  have hsymm : Std.Symm Apart := ⟨fun _ _ => Or.symm⟩
  have hapart : parts.Pairwise Apart := h.increasing.imp Or.inl
  -- One of the two would come before the other, and then they have no token in common.
  by_contra hne
  obtain hle | hle := hapart.forall hp hp' hne
  · exact Span.not_covers_of_le_start ht (Nat.le_trans hc.2 hle) hc'
  · exact Span.not_covers_of_le_start ht (Nat.le_trans hc'.2 hle) hc

section Divided

variable {before after : String} {region : Span}

theorem Divides.inOrder (h : Divides style ts parts.reverse)
    (hpath : Token.Path region.start ts region.stop) (hne : ∀ t ∈ ts, t.text ≠ "")
    (hsource : source = before ++ (Token.joined ts ++ after))
    (hbefore : region.start = Position.zero.advance before) : InOrder source region parts where
  nonempty p hp := by
    obtain ⟨xs, us, ys, rfl, hmade⟩ := h.made p (List.mem_reverse.mpr hp)
    refine hmade.offset_lt fun t ht => hne t ?_
    exact List.mem_append_right _ (List.mem_append_left _ ht)
  increasing := List.pairwise_reverse.mp (h.increasing hpath)
  within p hp := h.within hpath (List.mem_reverse.mpr hp)
  words span text hp := by
    obtain ⟨xs, us, ys, rfl, hmade⟩ := h.made _ (List.mem_reverse.mpr hp)
    obtain ⟨m, hxs, hrest⟩ := Token.path_append.mp hpath
    obtain ⟨n, hus, -⟩ := Token.path_append.mp hrest
    obtain rfl : span = ⟨m, n⟩ := hmade.span_eq hus
    obtain rfl : text = Token.joined us := hmade.words
    -- The tokens before the part, the part itself and the tokens after it.
    have hsplit : source = (before ++ Token.joined xs) ++ (Token.joined us ++ (Token.joined ys ++ after)) := by
      rw [hsource, Token.joined_append, Token.joined_append]
      simp only [String.append_assoc]
    have hstart : m = Position.zero.advance (before ++ Token.joined xs) := by
      rw [Position.advance_append, ← hbefore]
      exact hxs.stop_eq_advance
    exact ⟨Span.isSlice_of_append hsplit hstart hus.stop_eq_advance,
      Span.slice_of_append hsplit hstart hus.stop_eq_advance⟩

/-- A text that is divided into its parts is without loss. -/
theorem DividesAll.lossless (h : DividesAll style ts parts)
    (hpath : Token.Path region.start ts region.stop) (hne : ∀ t ∈ ts, t.text ≠ "")
    (hsource : source = before ++ (Token.joined ts ++ after))
    (hbefore : region.start = Position.zero.advance before) : Lossless source style region ts parts := by
  -- A token in one part is in no other.
  have unique {region : Span} {t : Token} (horder : InOrder source region parts) (ht : t.text ≠ "")
      (hcovered : ∃ p ∈ parts.reverse, p.span.Covers t) : ∃! p, p ∈ parts ∧ p.span.Covers t := by
    obtain ⟨p, hp, hcovers⟩ := hcovered
    have hp : p ∈ parts := List.mem_reverse.mp hp
    exact ⟨p, ⟨hp, hcovers⟩, fun p' hp' => horder.eq_of_covers ht hp'.1 hp hp'.2 hcovers⟩
  cases h with
  | whole h =>
    have horder := h.inOrder hpath hne hsource hbefore
    refine ⟨horder, hpath, fun t ht => ?_⟩
    obtain hcovered | ⟨hnone, hescape⟩ := h.accounts hpath hne t ht
    · exact .inl (unique horder (hne t ht) hcovered)
    · refine .inr ⟨fun p hp => hnone p (List.mem_reverse.mpr hp), .inl ?_⟩
      exact hescape.mono (List.Subset.refl _) fun _ hp => List.mem_reverse.mp hp
  | @slash ts _ slash h hslash =>
    obtain ⟨m, hts, hstart, hstop⟩ := Token.path_append.mp hpath
    obtain ⟨hne, hne'⟩ := List.forall_mem_append.mp hne
    have hsplit : source = before ++ (Token.joined ts ++ (Token.joined [slash] ++ after)) := by
      rw [hsource, Token.joined_append, String.append_assoc]
    -- The parts are those of the text without the backslash.
    have horder : InOrder source ⟨region.start, m⟩ parts := h.inOrder hts hne hsplit hbefore
    have hlt : m.offset < region.stop.offset := by
      rw [← hstart, ← hstop]
      exact Token.offset_lt (hne' slash List.mem_cons_self)
    have hwithin : InOrder source region parts :=
      { horder with within := fun p hp => ⟨(horder.within p hp).1, Nat.le_trans (horder.within p hp).2
          (Nat.le_of_lt hlt)⟩ }
    refine ⟨hwithin, hpath, fun t ht => ?_⟩
    obtain ht | ht := List.mem_append.mp ht
    · obtain hcovered | ⟨hnone, hescape⟩ := h.accounts hts hne t ht
      · exact .inl (unique horder (hne t ht) hcovered)
      · refine .inr ⟨fun p hp => hnone p (List.mem_reverse.mpr hp), .inl ?_⟩
        exact hescape.mono (List.subset_append_left _ _) fun _ hp => List.mem_reverse.mp hp
    · obtain rfl := List.mem_singleton.mp ht
      refine .inr ⟨fun p hp => ?_, .inr ⟨rfl, hslash, hstop⟩⟩
      refine Span.not_covers_of_stop_le (hne' t List.mem_cons_self) ?_
      rw [hstart]
      exact (horder.within p hp).2

end Divided

/-- What is read between two states, if it is divided into parts, is a text without loss. -/
theorem State.lossless {s u : State} (hstands : s.spot.StandsIn source) (hs : s.Placed) (h : s.Extends u)
    (hts : s.rest = ts ++ u.rest) (hdivides : DividesAll style ts parts) :
    Lossless source style ⟨s.position, u.position⟩ ts parts := by
  obtain ⟨us, before, after, hus, hsource, hposition, -⟩ := hstands.piece h.onward
  obtain ⟨vs, hvs, -, hpath⟩ := hs.path_read h
  obtain rfl : ts = us := List.append_cancel_right (hts.symm.trans hus)
  obtain rfl : ts = vs := List.append_cancel_right (hts.symm.trans hvs)
  refine hdivides.lossless hpath (fun t ht => hs.nonempty t ?_) hsource hposition
  rw [hts]
  exact List.mem_append_left _ ht

/-! ### Texts in a story -/

/-- Wherever reading a story has come to, everything is in its place. -/
theorem State.Inside.placed {indentSize d : Nat} {s : State}
    (hs : (State.ofText source indentSize).Inside d s) : s.Placed where
  path := ((State.placed_ofText source indentSize).spot.onward hs.onward).path
  nonempty t ht := (State.placed_ofText source indentSize).nonempty t (hs.rest.subset ht)
  kind t ht := (State.placed_ofText source indentSize).kind t (hs.rest.subset ht)
  column t ht := (State.placed_ofText source indentSize).column t (hs.rest.subset ht)

/-- **A text line without loss:** its content goes from the end of its indentation to the end of the line,
which the end of the line or of the file comes after. -/
def LosslessLine (source : String) (tokens : List Token) (span : Span) (indent : Indent)
    (parts : List TextPart) : Prop :=
  ∃ before content after, tokens = before ++ (content ++ after) ∧ (∀ u ∈ after.head?, u.kind = .endline) ∧
    Lossless source .line ⟨indent.span.stop, span.stop⟩ content parts

/-- **A quoted text without loss:** its content goes from the opening quote to the closing one, where the
whole ends. If it is never closed, it goes up to the end of the file, or of the line unless it is between
back-ticks. -/
def LosslessQuoted (source : String) (tokens : List Token) (span : Span) (quote : Quote)
    (parts : List TextPart) : Prop :=
  ∃ before opening content after stop, tokens = before ++ opening :: (content ++ after) ∧
    opening.kind = quote.kind ∧ opening.start = span.start ∧
    Lossless source .quoted ⟨opening.stop, stop⟩ content parts ∧
    ((∃ closing ∈ after.head?, closing.kind = quote.kind ∧ closing.start = stop ∧ closing.stop = span.stop) ∨
      stop = span.stop ∧ ∀ u ∈ after.head?, u.kind = .endline ∧ quote ≠ .backtick)

/-- The quoted text that a node has: where it stands, with its quotes, and its parts. -/
def Node.quoted? : Node → Option (Span × Quote × List TextPart)
  | .expression (.string span quote parts) => some (span, quote, parts)
  | .property (.quoted _ name quote parts _) => some (name, quote, parts)
  | .key (.quoted span parts) => some (span, .backtick, parts)
  | _ => none

namespace Grammar

variable {g : Nested} {s s' : State} {d : Nat}

/-- Where a line or the file ends, a line end comes next, or nothing. -/
theorem head?_of_isLineEnd (hs : s.Placed) (h : s.isLineEnd = true) : ∀ u ∈ s.rest.head?, u.kind = .endline := by
  intro u hu
  obtain ⟨rest, hrest⟩ := List.head?_eq_some_iff.mp hu
  have hkind : u.kind.isLineEnd = true := by simpa [State.isLineEnd, State.kind, State.current, hrest] using h
  have hfile : u.kind ≠ .endfile := hs.kind u (by simp [hrest])
  revert hkind hfile
  cases u.kind <;> simp [TokenKind.isLineEnd]

section Story

variable {indentSize : Nat}

theorem textLine_lossless (hs : (State.ofText source indentSize).Inside d s) {span : Span} {indent : Indent}
    (h : textLine g s = (some (.text span indent parts), s')) :
    LosslessLine source (State.ofText source indentSize).rest span indent parts := by
  obtain ⟨_, _, ⟨⟩, h⟩ := bind_eq_some.mp h
  obtain ⟨_, _, ⟨⟩, h⟩ := bind_eq_some.mp h
  obtain ⟨_, _, hrequired, h⟩ := bind_eq_some.mp h
  obtain ⟨-, rfl⟩ := requireState_eq_some.mp hrequired
  obtain ⟨_, t, hparts, h⟩ := bind_eq_some.mp h
  obtain ⟨_, _, ⟨⟩, h⟩ := bind_eq_some.mp h
  obtain ⟨_, _, -, h⟩ := bind_eq_some.mp h
  cases h
  -- The content starts after the indentation.
  have hinside : (State.ofText source indentSize).Inside d s.skipBlanks :=
    hs.extended (State.extends_skipWhile _ s)
  have hplaced : s.skipBlanks.Placed := hinside.placed
  obtain ⟨hend, content, hcontent, hdivides⟩ := textContent_divides hplaced hparts
  obtain ⟨before, hbefore⟩ := hinside.rest
  refine ⟨before, content, t.rest, ?_, ?_, ?_⟩
  · rw [← hbefore, ← hcontent]
  · exact head?_of_isLineEnd (hplaced.extended (extends_of_eq hparts)) hend
  · exact State.lossless ((State.standsIn_ofText source indentSize).onward hinside.onward) hplaced
      (extends_of_eq hparts) hcontent hdivides

theorem quoted_lossless (hs : (State.ofText source indentSize).Inside d s) {quote : Quote}
    (hk : s.kind = quote.kind) {r : List TextPart × Option Span}
    (h : quoted g quote.kind s = (some r, s')) :
    LosslessQuoted source (State.ofText source indentSize).rest ⟨s.position, s'.position⟩ quote r.1 := by
  have hquote : quote.kind ≠ .endfile := quote.kind_ne_endfile
  have hplaced : s.Placed := hs.placed
  obtain ⟨content, u, hu, hcontent, hdivides, hends⟩ := quoted_divides hplaced h
  have hopened : (State.ofText source indentSize).Inside d s.advance := hs.extended (State.extends_advance s)
  have hplaced' : u.Placed := (hopened.extended hu).placed
  obtain ⟨before, hbefore⟩ := hs.rest
  refine ⟨before, s.current, content, u.rest, u.position, ?_, hk, rfl, ?_, ?_⟩
  · rw [← hbefore, State.rest_eq_of_kind hk hquote, hcontent]
  · rw [show s.current.stop = s.advance.position from congrArg Span.stop hplaced.span_current]
    exact State.lossless ((State.standsIn_ofText source indentSize).onward hopened.onward) hopened.placed hu
      hcontent hdivides
  · -- The closing quote, or else the end of the file or of a line that the text may not go beyond.
    obtain ⟨hclosing, rfl⟩ | ⟨hend, -, hposition⟩ := hends
    · refine .inl ⟨u.current, ?_, hclosing, rfl, congrArg Span.stop hplaced'.span_current⟩
      rw [State.rest_eq_of_kind hclosing hquote]
      rfl
    · refine .inr ⟨hposition.symm, ?_⟩
      obtain heof | ⟨hline, htick⟩ := hend
      · rw [State.rest_eq_nil hplaced' heof]
        exact nofun
      · rw [State.rest_eq_of_kind hline (by decide)]
        rintro _ ⟨⟩
        exact ⟨hline, fun hq => htick (congrArg Quote.kind hq)⟩

theorem stringLiteral_lossless (hs : (State.ofText source indentSize).Inside d s) {span : Span}
    {quote : Quote} (hk : s.kind = quote.kind)
    (h : stringLiteral g quote s = (some (.string span quote parts), s')) :
    LosslessQuoted source (State.ofText source indentSize).rest span quote parts := by
  obtain ⟨_, _, ⟨⟩, h⟩ := bind_eq_some.mp h
  obtain ⟨r, t, hread, h⟩ := bind_eq_some.mp h
  obtain ⟨_, _, ⟨⟩, h⟩ := bind_eq_some.mp h
  cases h
  rw [show s.current.kind = quote.kind from hk] at hread
  exact quoted_lossless hs hk hread

theorem quotedProperty_lossless (hs : (State.ofText source indentSize).Inside d s) {multiline : Bool}
    {span name : Span} {quote : Quote} {value : Expression} (hk : s.kind = quote.kind)
    (h : quotedProperty g multiline s.current quote s = (some (.quoted span name quote parts value), s')) :
    LosslessQuoted source (State.ofText source indentSize).rest name quote parts := by
  obtain ⟨r, t, hread, h⟩ := bind_eq_some.mp h
  obtain ⟨_, _, ⟨⟩, h⟩ := bind_eq_some.mp h
  obtain ⟨_, _, -, h⟩ := bind_eq_some.mp h
  obtain ⟨_, _, ⟨⟩, h⟩ := bind_eq_some.mp h
  cases h
  rw [show s.current.kind = quote.kind from hk] at hread
  exact quoted_lossless hs hk hread

theorem objectKey_lossless (hs : (State.ofText source indentSize).Inside d s) {span : Span}
    (h : objectKey g s = (some (.quoted span parts), s')) :
    LosslessQuoted source (State.ofText source indentSize).rest span .backtick parts := by
  unfold objectKey at h
  rw [look_bind_run] at h
  split at h
  · obtain ⟨_, _, -, h⟩ := bind_eq_some.mp h
    obtain ⟨_, _, ⟨⟩, h⟩ := bind_eq_some.mp h
    cases h
  · obtain ⟨_, _, hrequired, h⟩ := bind_eq_some.mp h
    obtain ⟨htick, hsame⟩ := require_eq_some.mp hrequired
    rw [hsame] at h
    obtain ⟨r, t, hread, h⟩ := bind_eq_some.mp h
    obtain ⟨_, _, ⟨⟩, h⟩ := bind_eq_some.mp h
    cases h
    have hk : s.kind = Quote.backtick.kind := beq_iff_eq.mp htick
    exact quoted_lossless hs hk hread

end Story

end Grammar

/-- **Nothing of a text is lost but backslashes that escape something.** This is about every text line, string,
quoted key of a member and quoted name of an object in a story, however deep it stands and whatever is wrong
with the story. Its content is a stretch of the tokens of the story: after the indentation and up to the end
of the line, or between the quotes, or up to where a text that is never closed ends. Its parts are not
empty, one comes after the other, the words of a chunk are the piece of the source that it covers, and each
token of the content is in exactly one part, with these exceptions: in a line, backslashes that escape the
token after them or stand at the very end; between quotes, backslashes right before a star. -/
theorem parseModule_texts_lossless {source path : String} {indentSize : Nat} {l : Line}
    (hl : l ∈ (parseModule source path indentSize).module.lines) {d : Nat} {n : Node}
    (hw : Node.Within d (.line l) n) :
    let tokens := (State.ofText source indentSize).rest
    (∀ span indent parts, n = .line (.text span indent parts) →
      LosslessLine source tokens span indent parts) ∧
    ∀ span quote parts, n.quoted? = some (span, quote, parts) →
      LosslessQuoted source tokens span quote parts := by
  intro tokens
  have horigin := State.parseModule_sound _ path l hl d _ hw
  constructor
  · rintro span indent parts rfl
    obtain ⟨g, s, s', hs, hread⟩ := horigin
    exact textLine_lossless hs (textLine_of_line hread)
  · intro span quote parts hquoted
    unfold Node.quoted? at hquoted
    split at hquoted
    · cases hquoted
      obtain ⟨g, s, s', hs, hk, hread⟩ := horigin
      exact stringLiteral_lossless hs hk hread
    · cases hquoted
      obtain ⟨g, multiline, s, s', hs, hk, hread⟩ := horigin
      exact quotedProperty_lossless hs hk hread
    · cases hquoted
      obtain ⟨g, s, s', hs, hread⟩ := horigin
      exact objectKey_lossless hs hread
    · cases hquoted

/-- A line with a star that is escaped, a value, and a backslash at its end; and a name with a star that is
escaped, a backslash that is kept, and a value. -/
theorem parseModule_texts_lossless_escapes :
    let source := "a \\*b *x e\\\n\x60k\\*\\c*y\x60\n"
    (∃ span indent parts, .text span indent parts ∈ (parseModule source "" 2).module.lines ∧
      parts.length = 4 ∧ LosslessLine source (State.ofText source 2).rest span indent parts) ∧
    ∃ l ∈ (parseModule source "" 2).module.lines, ∃ span parts, l.quotedName? = some (span, parts) ∧
      parts.length = 3 ∧ LosslessQuoted source (State.ofText source 2).rest span .backtick parts := by
  intro source
  have hline : ∃ t ∈ (parseModule source "" 2).module.lines.filterMap Line.text?, t.2.2.length = 4 := by
    decide +kernel
  have hname : ∃ l ∈ (parseModule source "" 2).module.lines, ∃ name ∈ l.quotedName?, name.2.length = 3 := by
    decide +kernel
  constructor
  · obtain ⟨⟨span, indent, parts⟩, ht, hlength⟩ := hline
    obtain ⟨l, hl, htext⟩ := List.mem_filterMap.mp ht
    obtain rfl := Line.text?_eq_some.mp htext
    exact ⟨span, indent, parts, hl, hlength, (parseModule_texts_lossless hl (.self _)).1 _ _ _ rfl⟩
  · obtain ⟨l, hl, ⟨span, parts⟩, hname, hlength⟩ := hname
    exact ⟨l, hl, span, parts, hname, hlength,
      (parseModule_texts_lossless hl (Line.within_of_quotedName? hname)).2 _ _ _ rfl⟩

end Story
