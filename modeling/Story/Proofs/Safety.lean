import Story.Proofs.Reports

/-!
# Safety of reading

A reader looks at tokens by their number, cuts pieces out of the text by the places of tokens, divides by the
columns of an indentation and counts blocks and levels up and down. Nothing of this can go wrong, whatever
part of the tokens of a text is read, and in whatever order it is read.

* `tape` — the tokens that are walked over. `State.ofTokens_spec` — at the start all of them are ahead, and
  they stand in the text that they come from;
* `State.Reaches` — the states that reading may come to, in the middle of a construct as well as between two;
* `State.Safe` — in such a state every token that is looked at is on the tape, every piece of text that is
  taken is one, and nothing is divided by zero or counted below zero;
* `Grammar.Call`, `Grammar.session` — lines, statements and expressions that are asked for one after the other;
* `session_safe` — during a session, and while the rest is read as a story, all states are safe; and all that is
  given out or reported is about pieces of the text.
-/

namespace Story

open Story.Parser Story.Grammar

/-! ### The tokens that are walked over -/

/-- The tokens, with the end of the file after them if they lack it. -/
def tape (tokens : List Token) : List Token :=
  match tokens.getLast? with
  | none => [.endfile .zero]
  | some t => if t.kind = .endfile then tokens else tokens ++ [.endfile t.stop]

/-- Where a way stops, its last token does. -/
theorem Token.Path.stop_last {p q : Position} {ts : List Token} {t : Token} (h : Token.Path p (ts ++ [t]) q) :
    t.stop = q := by
  obtain ⟨_, -, -, hstop⟩ := Token.path_append.mp h
  exact hstop

namespace State

/-- Tokens that stand in a text one after the other. -/
theorem standsIn_of_path {s : State} {text : String} (before after : String)
    (htext : text = before ++ (Token.joined s.rest ++ after))
    (hpath : Token.Path (Position.zero.advance before) s.rest s.finish)
    (hof : ∀ t ∈ s.rest, t.IsOf text.toList) : s.Placed ∧ s.spot.StandsIn text := by
  have hposition : s.position = Position.zero.advance before := position_eq hpath
  have hplaced : s.Placed :=
    { path := hposition ▸ hpath
      nonempty := fun t ht => (hof t ht).nonempty
      kind := fun t ht => (hof t ht).kind_ne_endfile
      column := fun t ht => (hof t ht).column_stop }
  exact ⟨hplaced, { hplaced.spot with split := ⟨before, after, htext, hposition⟩ }⟩

/-- A part of the tokens of a text: nothing, or tokens before the end of the file, with it or without it. -/
theorem splitComments_infix {text : String} {tokens : List Token} (h : tokens <:+: scan text) :
    splitComments tokens = [] ∨
      ∃ before ts after finish, Token.Path .zero (before ++ (ts ++ after)) finish ∧
        text = Token.joined before ++ (Token.joined ts ++ Token.joined after) ∧
        (∀ t ∈ ts, t.IsOf text.toList) ∧
        (splitComments tokens = ts ∧ ts ≠ [] ∨ splitComments tokens = ts ++ [.endfile finish] ∧ after = []) := by
  obtain ⟨before, after, hscan⟩ := h
  obtain ⟨all, finish, hall, hpath, hof⟩ := splitComments_scan text
  have hjoined : text = Token.joined all := by
    have h := congrArg Token.joined hall
    rw [joined_splitComments, joined_scan, Token.joined_append] at h
    exact h.trans String.append_empty
  -- Comment signs are split token by token, so a part stays a part.
  have hsplit : splitComments before ++ splitComments tokens ++ splitComments after = all ++ [.endfile finish] := by
    rw [← hall, ← hscan]
    simp [splitComments]
  generalize splitComments before = b at hsplit
  generalize splitComments tokens = ts at hsplit ⊢
  generalize splitComments after = a at hsplit
  -- The end of the file is the last token of the part that is not empty and comes last.
  obtain rfl | ⟨a, x, rfl⟩ := List.eq_nil_or_concat' a
  · obtain rfl | ⟨ts, x, rfl⟩ := List.eq_nil_or_concat' ts
    · exact .inl rfl
    · rw [List.append_nil, ← List.append_assoc] at hsplit
      obtain ⟨rfl, hx⟩ := List.append_inj' hsplit rfl
      cases hx
      refine .inr ⟨b, ts, [], finish, by simpa using hpath, ?_, fun t ht => hof t (by simp [ht]), .inr ⟨rfl, rfl⟩⟩
      rw [hjoined, Token.joined_append, Token.joined_nil, String.append_empty]
  · rw [← List.append_assoc] at hsplit
    obtain ⟨rfl, -⟩ := List.append_inj' hsplit rfl
    obtain rfl | hne := eq_or_ne ts []
    · exact .inl rfl
    · refine .inr ⟨b, ts, a, finish, by simpa using hpath, ?_, fun t ht => hof t (by simp [ht]), .inl ⟨rfl, hne⟩⟩
      rw [hjoined, Token.joined_append, Token.joined_append, String.append_assoc]

/-- **Before a part of the tokens of a text is read, all of it is ahead,** and it stands in the text. -/
theorem ofTokens_spec {text : String} {tokens : List Token} (h : tokens <:+: scan text) (indentSize : Nat) :
    tape (splitComments tokens) = (ofTokens (splitComments tokens) indentSize).rest ++
        [.endfile (ofTokens (splitComments tokens) indentSize).finish] ∧
      (ofTokens (splitComments tokens) indentSize).Placed ∧
      (ofTokens (splitComments tokens) indentSize).spot.StandsIn text := by
  have hkeep {ts : List Token} (hof : ∀ t ∈ ts, t.IsOf text.toList) :
      ts.filter (fun t => t.kind != .endfile) = ts :=
    List.filter_eq_self.mpr fun t ht => by simpa using (hof t ht).kind_ne_endfile
  obtain hnil | ⟨before, ts, after, finish, hpath, htext, hof, htokens⟩ := splitComments_infix h
  · -- With no tokens reading starts, and ends, at the start of the text.
    rw [hnil]
    refine ⟨rfl, standsIn_of_path "" text ?_ rfl nofun⟩
    exact (String.empty_append.trans String.empty_append).symm
  · obtain ⟨p, hbefore, hlater⟩ := Token.path_append.mp hpath
    obtain ⟨q, hts, hafter⟩ := Token.path_append.mp hlater
    obtain rfl := hbefore.stop_eq_advance
    obtain ⟨heq, hne⟩ | ⟨heq, rfl⟩ := htokens
    · rw [heq]
      obtain ⟨us, t, rfl⟩ := (List.eq_nil_or_concat' ts).resolve_left hne
      have hstop : t.stop = q := hts.stop_last
      have hkind : t.kind ≠ .endfile := (hof t (by simp)).kind_ne_endfile
      have hrest : (ofTokens (us ++ [t]) indentSize).rest = us ++ [t] := hkeep hof
      have hfinish : (ofTokens (us ++ [t]) indentSize).finish = q := by simp [ofTokens, hstop]
      refine ⟨by simp [tape, hkind, hrest, hfinish, hstop],
        standsIn_of_path (Token.joined before) (Token.joined after) ?_ ?_ ?_⟩
      · rw [hrest]
        exact htext
      · rwa [hrest, hfinish]
      · rwa [hrest]
    · rw [heq]
      have hrest : (ofTokens (ts ++ [.endfile finish]) indentSize).rest = ts := by
        simp only [ofTokens, List.filter_append, hkeep hof]
        exact List.append_nil ts
      have hfinish : (ofTokens (ts ++ [.endfile finish]) indentSize).finish = finish := by
        simp [ofTokens, Token.stop, Token.endfile, Position.advance]
      refine ⟨?_, standsIn_of_path (Token.joined before) "" ?_ ?_ ?_⟩
      · rw [hrest, hfinish]
        simp [tape, Token.endfile]
      · rw [hrest]
        simpa using htext
      · rw [hrest, hfinish, ← show q = finish from hafter]
        exact hts
      · rwa [hrest]

/-! ### The states that reading comes to -/

/-- **Reading on.** `o.Reaches s` says that reading may come from `o` to `s`: any readers have been run, and
blocks and levels may have been opened on the way that are still open. -/
inductive Reaches (o : State) : State → Prop where
  | refl : Reaches o o
  | read {α : Type} {s : State} (p : Parser α) (h : Reaches o s) : Reaches o (p s).2
  | block {s : State} (h : Reaches o s) : Reaches o { s with blocks := s.blocks + 1 }
  | level {s : State} (h : Reaches o s) : Reaches o { s with depth := s.depth + 1 }

namespace Reaches

variable {o s t : State}

/-- No step leaves the tokens that were ahead, or loses count of them. -/
theorem counted (h : o.Reaches s) : o.spot.Onward s.spot ∧
    s.cursor + s.rest.length = o.cursor + o.rest.length ∧ s.indentSize = o.indentSize := by
  induction h with
  | refl => exact ⟨.refl _, rfl, rfl⟩
  | @read _ s p _ ih =>
    obtain ⟨honward, hcursor, hindent⟩ := ih
    have hext : s.Extends (p s).2 := p.extended s
    exact ⟨honward.trans hext.onward, hext.cursor.trans hcursor, hext.indentSize.trans hindent⟩
  | block _ ih | level _ ih => exact ih

theorem onward (h : o.Reaches s) : o.spot.Onward s.spot := h.counted.1

/-- What has been read on the way. -/
theorem rest_eq (h : o.Reaches s) : o.rest = o.rest.take (s.cursor - o.cursor) ++ s.rest := by
  obtain ⟨⟨⟨read, hread⟩, -⟩, hcursor, -⟩ := h.counted
  have hlength := congrArg List.length hread
  rw [List.length_append] at hlength
  have hcount : s.cursor - o.cursor = read.length := by
    change read.length + s.rest.length = o.rest.length at hlength
    omega
  rw [hcount]
  change read ++ s.rest = o.rest at hread
  rw [← hread, List.take_left]

theorem placed (ho : o.Placed) (h : o.Reaches s) : s.Placed := by
  induction h with
  | refl => exact ho
  | read p _ ih => exact ih.extended (p.extended _)
  | block _ ih | level _ ih => exact { ih with }

theorem advance (h : o.Reaches s) : o.Reaches s.advance := h.read (change .advance)

theorem skipLine (h : o.Reaches s) : o.Reaches s.skipLine := h.read (change .skipLine)

end Reaches

/-- **Nothing goes wrong here.** In this state of reading the tokens on `tape`, which come from `text`:

* the token that has been reached is on the tape, and so is every token that may be looked at, up to the last
  one, which is seen for ever;
* the token before it, if there is one, stops where it starts;
* the line ends on the tape, and what is left of the line is a piece of the text;
* the text up to any place that is reached later is a piece of the text, and so is the text through the token
  that stands there;
* the columns of an indentation are some;
* whatever is read inside one more block, or one more level, that block and that level are still open when
  they are to be closed. -/
structure Safe (text : String) (tape : List Token) (s : State) : Prop where
  cursor : s.cursor < tape.length
  peek (n : Nat) : tape[min (s.cursor + n) (tape.length - 1)]? = some (s.peek n)
  previous : 0 < s.cursor → ∃ t, tape[s.cursor - 1]? = some t ∧ t.stop = s.position
  line : ∃ n t, tape[s.cursor + n]? = some t ∧ t.kind.isLineEnd = true ∧
    (∀ m < n, ∃ u, tape[s.cursor + m]? = some u ∧ u.kind.isLineEnd = false) ∧
    (Span.mk s.position t.start).IsSlice text ∧ (Span.mk s.position t.start).slice text = s.lineText
  piece (t : State) : s.Reaches t → (Span.mk s.position t.position).IsSlice text ∧
    (Span.mk s.position t.position).slice text = Token.joined (s.rest.take (t.cursor - s.cursor)) ∧
    (Span.mk s.position t.current.stop).IsSlice text
  indentSize : s.indentSize ≠ 0
  blocks {α : Type} (p : Parser α) : (p { s with blocks := s.blocks + 1 }).2.blocks = s.blocks + 1
  depth {α : Type} (p : Parser α) : (p { s with depth := s.depth + 1 }).2.depth = s.depth + 1

section Safe

variable {text : String} {o s : State}

/-- A token ahead, by its number on the tape. -/
theorem getElem?_tape {read : List Token} (hread : o.rest = read ++ s.rest) (hlength : read.length = s.cursor)
    (hfinish : s.finish = o.finish) (n : Nat) :
    (o.rest ++ [Token.endfile o.finish])[s.cursor + n]? = (s.rest ++ [Token.endfile s.finish])[n]? := by
  rw [hread, hfinish, List.append_assoc, ← hlength, List.getElem?_append_right (Nat.le_add_right ..),
    Nat.add_sub_cancel_left]

theorem getElem?_ahead (s : State) (n : Nat) :
    (s.rest ++ [Token.endfile s.finish])[min n s.rest.length]? = some (s.peek n) := by
  unfold peek
  by_cases hn : n < s.rest.length
  · rw [Nat.min_eq_left hn.le, List.getElem?_append_left hn, List.getD_eq_getElem?_getD, List.getElem?_eq_getElem hn]
    rfl
  · have hn : s.rest.length ≤ n := Nat.not_lt.mp hn
    rw [Nat.min_eq_right hn, List.getElem?_append_right le_rfl, List.getD_eq_getElem?_getD, List.getElem?_eq_none hn]
    simp

/-- What has been read up to a state, if counting started before it. -/
theorem Reaches.read_eq (hcursor : o.cursor = 0) (h : o.Reaches s) :
    ∃ read, o.rest = read ++ s.rest ∧ read.length = s.cursor := by
  obtain ⟨-, hcount, -⟩ := h.counted
  refine ⟨_, h.rest_eq, ?_⟩
  rw [List.length_take]
  omega

/-- The token that has been reached, by its number on the tape. -/
theorem getElem?_cursor (hcursor : o.cursor = 0) (h : o.Reaches s) :
    (o.rest ++ [Token.endfile o.finish])[s.cursor]? = some s.current := by
  obtain ⟨read, hread, hlength⟩ := h.read_eq hcursor
  have hahead := getElem?_ahead s 0
  rw [Nat.zero_min, ← getElem?_tape hread hlength h.onward.finish] at hahead
  rw [← Nat.add_zero s.cursor, hahead, peek, current]
  cases s.rest <;> rfl

/-- The line ends on the tape, and up to there it is a piece of the text. -/
theorem line_of_reaches (hstands : o.spot.StandsIn text) (hcursor : o.cursor = 0) (h : o.Reaches s) :
    ∃ n t, (o.rest ++ [Token.endfile o.finish])[s.cursor + n]? = some t ∧ t.kind.isLineEnd = true ∧
      (∀ m < n, ∃ u, (o.rest ++ [Token.endfile o.finish])[s.cursor + m]? = some u ∧ u.kind.isLineEnd = false) ∧
      (Span.mk s.position t.start).IsSlice text ∧ (Span.mk s.position t.start).slice text = s.lineText := by
  obtain ⟨read, hread, hlength⟩ := h.read_eq hcursor
  -- Going from token to token for the end of the line comes to where `skipLine` leads.
  let skipped := s.rest.takeWhile fun t => !t.kind.isLineEnd
  have hsplit : s.rest = skipped ++ s.skipLine.rest := List.takeWhile_append_dropWhile.symm
  have honward : s.spot.Onward s.skipLine.spot := (extends_skipWhile _ s).onward
  have hs := hstands.onward h.onward
  refine ⟨skipped.length, s.skipLine.current, getElem?_cursor hcursor h.skipLine, isLineEnd_skipLine s, ?_,
    hs.isSlice honward, hs.slice_eq honward hsplit⟩
  intro m hm
  refine ⟨skipped[m], ?_, ?_⟩
  · rw [getElem?_tape hread hlength h.onward.finish, hsplit, List.append_assoc, List.getElem?_append_left hm,
      List.getElem?_eq_getElem hm]
  · simpa using List.mem_takeWhile_imp (List.getElem_mem hm)

/-- The token before the one that has been reached stops there. -/
theorem previous_of_reaches (hstands : o.spot.StandsIn text) (hcursor : o.cursor = 0) (h : o.Reaches s)
    (hpos : 0 < s.cursor) :
    ∃ t, (o.rest ++ [Token.endfile o.finish])[s.cursor - 1]? = some t ∧ t.stop = s.position := by
  obtain ⟨read, hread, hlength⟩ := h.read_eq hcursor
  obtain ⟨ts, hts, hpath, -⟩ := hstands.path_read h.onward
  obtain rfl : read = ts := List.append_cancel_right (hread.symm.trans hts)
  -- The tokens that have been read touch, and the last of them is the one before.
  obtain rfl | ⟨us, t, rfl⟩ := List.eq_nil_or_concat' read
  · exact absurd hlength (Nat.ne_of_lt hpos)
  · refine ⟨t, ?_, hpath.stop_last⟩
    have hcount : s.cursor - 1 = us.length := by
      rw [← hlength, List.length_append, List.length_singleton, Nat.add_sub_cancel]
    rw [hread, hcount]
    simp

/-- **Every state that is reached is safe.** -/
theorem safe_of_reaches (ho : o.Placed) (hstands : o.spot.StandsIn text) (hcursor : o.cursor = 0)
    (hindent : o.indentSize ≠ 0) (h : o.Reaches s) : s.Safe text (o.rest ++ [.endfile o.finish]) := by
  obtain ⟨-, hcount, hsize⟩ := h.counted
  have htape : (o.rest ++ [Token.endfile o.finish]).length = s.cursor + s.rest.length + 1 := by
    rw [List.length_append, List.length_singleton]
    omega
  have hs := hstands.onward h.onward
  exact
    { cursor := by omega
      peek := fun n => by
        obtain ⟨read, hread, hlength⟩ := h.read_eq hcursor
        rw [htape, Nat.add_sub_cancel, Nat.add_min_add_left, getElem?_tape hread hlength h.onward.finish,
          getElem?_ahead]
      previous := previous_of_reaches hstands hcursor h
      line := line_of_reaches hstands hcursor h
      piece := fun t ht => by
        -- The current token stops where reading it leads to.
        have hstop : t.current.stop = t.advance.position :=
          congrArg Span.stop ((ht.placed (h.placed ho)).span_current)
        rw [hstop]
        exact ⟨hs.isSlice ht.onward, hs.slice_eq ht.onward ht.rest_eq, hs.isSlice ht.advance.onward⟩
      indentSize := hsize ▸ hindent
      blocks := fun p => (p.extended _).blocks
      depth := fun p => (p.extended _).depth }

end Safe

end State

/-! ### Pieces of the text -/

section Pieces

variable {text : String} {a b : Spot} {cs : List Component} {os : List Outline}

/-- A stretch between two spots. -/
theorem Spot.StandsIn.isSlice_of_holds {span : Span} (hstands : a.StandsIn text) (h : a.Holds b span) :
    span.IsSlice text := by
  obtain ⟨c, d, hc, hcd, -, rfl⟩ := h
  exact (hstands.onward hc).isSlice hcd

/-- A place between two characters of the text, or before or after all of them. -/
def Position.IsIn (text : String) (p : Position) : Prop := String.Pos.Raw.IsValid text ⟨p.offset⟩

theorem Spot.StandsIn.isIn (hstands : a.StandsIn text) (c : Spot) (hc : a.Onward c) : c.position.IsIn text :=
  (hstands.isSlice hc).stop

theorem Outline.Sound.isSlice {o : Outline} (h : o.Sound (Position.IsIn text)) : o.span.IsSlice text :=
  ⟨h.start, h.stop, h.le⟩

/-- The nodes that are read are about pieces of the text, and so are all nodes below them. -/
theorem Reads.isSlice (hstands : a.StandsIn text) (h : Reads a cs b) (hos : Drawn cs os) :
    ∀ o ∈ Outline.nodesOfAll os, o.span.IsSlice text := by
  have hlaid := h.laid hstands.toPlaced hstands.isIn (.refl a) hos
  exact fun o ho => (hlaid.sound o ho).isSlice

theorem Reads.isSlice_node {ns : List Node} {n : Node} (hstands : a.StandsIn text) (h : Reads a (ns.map .node) b)
    (hn : n ∈ ns) (role : String) : ∀ o ∈ Outline.nodesOfAll (n.outlines role), o.span.IsSlice text := by
  obtain ⟨before, after, rfl⟩ := List.append_of_mem hn
  have hdrawn := (Drawn.allOmitted before).append ((Drawn.allOmitted after).node n role)
  rw [List.nil_append, List.append_nil] at hdrawn
  rw [List.map_append, List.map_cons] at h
  exact h.isSlice hstands hdrawn

/-- The imports that are recorded are about pieces of the text. -/
theorem Reads.isSlice_import (hstands : a.StandsIn text) (h : Reads a cs b) (hnone : a.imports = [])
    (role : String) :
    ∀ o ∈ Outline.nodesOfAll (b.imports.reverse.map (Import.outline role)), o.span.IsSlice text := by
  obtain ⟨new, hnew, hrecorded⟩ := h.recorded hstands.toPlaced hstands.isIn (.refl a)
  rw [hnew, hnone, List.append_nil]
  exact fun o ho => (hrecorded.outline ho).1.isSlice

variable {s t : State}

/-- All nodes of a story are about pieces of the text, wherever the story starts. -/
theorem State.isSlice_of_parseModule (hstands : s.spot.StandsIn text) (hnone : s.imports = [])
    (hread : Reads s.spot cs t.spot) (ht : t.Placed) (path : String) :
    ∀ o ∈ (t.parseModule path).module.outline.nodes, o.span.IsSlice text := by
  obtain ⟨b, hlines, hrest, hspan, himports⟩ := State.parseModule_reads ht path
  have hfinish : b.position = b.finish := by simp [Spot.position, Spot.current, hrest, Token.endfile]
  have hend := (hstands.isSlice (hread.onward.trans hlines.onward)).stop
  rw [Outline.nodes_eq, List.forall_mem_cons]
  refine ⟨?_, ?_⟩
  · -- The story's own span starts with the text, even if its tokens do not.
    change (t.parseModule path).module.span.IsSlice text
    rw [hspan, ← hfinish]
    exact ⟨String.Pos.Raw.isValid_zero, hend, Nat.zero_le _⟩
  · change ∀ o ∈ Outline.nodesOfAll (Line.outlines "line" (t.parseModule path).module.lines ++
      (t.parseModule path).module.imports.map (Import.outline "import")), _
    rw [himports, Outline.nodesOfAll_append, List.forall_mem_append]
    exact ⟨hlines.isSlice (hstands.onward hread.onward) (.lines "line" _),
      (hread.append hlines).isSlice_import hstands hnone "import"⟩

/-- All reports are about pieces of the text. -/
theorem State.isSlice_of_diagnostics (hstands : s.spot.StandsIn text) (hnone : s.reports = [])
    (htells : s.TellsTo s.spot t) (ht : t.Placed) (honward : s.spot.Onward t.spot) (path : String) :
    ∀ d ∈ (t.parseModule path).diagnostics, d.span.IsSlice text := by
  intro d hd
  obtain ⟨added, hadded, htold⟩ := htells.trans (TellsFrom.told (p := lines) ht honward) (lines.extended t)
  rw [State.mem_diagnostics, hadded, hnone, List.append_nil] at hd
  obtain ⟨c, hc⟩ := (htold d hd).after
  exact hstands.isSlice_of_holds hc

end Pieces

/-! ### Asking for one thing after the other -/

namespace Grammar

/-- What a reader may be asked for. -/
inductive Call where
  /-- A line. -/
  | line
  /-- A statement. -/
  | statement (multiline : Bool)
  /-- An expression. -/
  | expression (multiline : Bool)
  /-- An operand with what is attached to it, and no operators after it. -/
  | suffixed (multiline : Bool)

/-- Ask for what `p` reads. The answer may be that there is none; nothing is undone then. -/
def ask {α : Type} (F : α → Node) (p : Parser α) : Parser (Option Node) := do
  return (← found p).map F

/-- The answer to a call. -/
def Call.answer : Call → Parser (Option Node)
  | line => ask .line (Grammar.line outermost)
  | statement multiline => ask .statement (outermost.statement multiline)
  | expression multiline => ask .expression (outermost.expression multiline true)
  | suffixed multiline => ask .expression (outermost.expression multiline false)

/-- The answers to calls, one after the other. -/
def session : List Call → Parser (List (Option Node))
  | [] => return []
  | call :: calls => do
    let answer ← call.answer
    let answers ← session calls
    return answer :: answers

theorem ask_reads {α : Type} {F : α → Node} {p : Parser α} [FailsQuietly p] (hp : p.ReadsNode F) :
    (ask F p).ReadsAs fun answer => answer.toList.map .node := by
  refine readsAs_of_completes fun a => hp.follows_found (fun x => ?_) ?_ <;> exact follows_pure fun _ _ hr => hr

theorem Call.answer_reads (call : Call) : call.answer.ReadsAs fun answer => answer.toList.map .node := by
  have houtermost : outermost.Derives := nested_derives nestingLimit
  have hexpression := houtermost.expressionFails
  have hstatement := houtermost.statementFails
  cases call with
  | line => exact ask_reads (line_reads houtermost)
  | statement multiline => exact ask_reads (houtermost.statement multiline)
  | expression multiline => exact ask_reads (houtermost.expression multiline true)
  | suffixed multiline => exact ask_reads (houtermost.expression multiline false)

instance (a : Spot) (call : Call) : TellsFrom a call.answer := by
  have houtermost : outermost.Tells := nested_tells nestingLimit
  cases call <;> unfold Call.answer ask <;> infer_instance

instance (call : Call) : Total call.answer := by
  cases call <;> unfold Call.answer ask <;> infer_instance

/-- All answers are read, one after the other. -/
theorem session_reads (calls : List Call) :
    (session calls).ReadsAs fun answers => (answers.flatMap Option.toList).map .node := by
  induction calls with
  | nil => exact readsAs_of_completes fun a => follows_pure fun _ _ hr => hr
  | cons call calls ih =>
    refine readsAs_of_completes fun a => call.answer_reads.follows fun answer => ih.follows fun answers => ?_
    refine follows_pure fun s _ hr => ?_
    simpa using hr

instance (a : Spot) (calls : List Call) : TellsFrom a (session calls) := by
  induction calls with
  | nil => unfold session; infer_instance
  | cons call calls ih => unfold session; infer_instance

/-- Every call is answered. -/
theorem session_eq_some (calls : List Call) (s : State) :
    ∃ answers s', session calls s = (some answers, s') ∧ answers.length = calls.length := by
  induction calls generalizing s with
  | nil => exact ⟨[], s, rfl, rfl⟩
  | cons call calls ih =>
    obtain ⟨answer, t, hanswer⟩ := Total.succeeds (p := call.answer) s
    obtain ⟨answers, u, hanswers, hlength⟩ := ih t
    refine ⟨answer :: answers, u, ?_, congrArg (· + 1) hlength⟩
    exact bind_eq_some.mpr ⟨answer, t, hanswer, bind_eq_some.mpr ⟨answers, u, hanswers, rfl⟩⟩

end Grammar

/-- **Reading is safe.** Take any part of the tokens of a text, ask for lines, statements and expressions in any
order, and read what is left as a story. Then all states on the way are safe. Every call is answered, the story
goes on to the end of the tokens, and all nodes and reports are about pieces of the text. -/
theorem session_safe (text path : String) (indentSize : Nat) {tokens : List Token} (h : tokens <:+: scan text)
    (calls : List Call) :
    let start := State.ofTokens (splitComments tokens) indentSize
    let after := (session calls start).2
    let story := after.parseModule path
    (∀ s, start.Reaches s → s.Safe text (tape (splitComments tokens))) ∧
    start.Reaches after ∧ start.Reaches (lines after).2 ∧ (lines after).2.rest = [] ∧
    (∃ answers, (session calls start).1 = some answers ∧ answers.length = calls.length ∧
      ∀ n, some n ∈ answers → ∀ role, ∀ o ∈ Outline.nodesOfAll (n.outlines role), o.span.IsSlice text) ∧
    (∀ o ∈ story.module.outline.nodes, o.span.IsSlice text) ∧
    ∀ d ∈ story.diagnostics, d.span.IsSlice text := by
  intro start after story
  obtain ⟨htape, hplaced, hstands⟩ := State.ofTokens_spec h indentSize
  have hindent : start.indentSize ≠ 0 := by simp [start, State.ofTokens]
  obtain ⟨answers, s, hsession, hlength⟩ := session_eq_some calls start
  obtain rfl : after = s := congrArg Prod.snd hsession
  have hafter : start.Reaches after := .read (session calls) .refl
  have hlast : start.Reaches (lines after).2 := hafter.read lines
  have hend : (lines after).2.isEof = true := by
    obtain ⟨ls, last, hlines, hend⟩ := lines_eq_some after
    rwa [hlines]
  -- Nodes lie where they are read, and reports are told in what is read.
  have hread : Reads start.spot ((answers.flatMap Option.toList).map .node) after.spot :=
    session_reads calls hplaced hsession
  have htells : start.TellsTo start.spot after := TellsFrom.told (p := session calls) hplaced (.refl start.spot)
  refine ⟨fun s hs => htape ▸ State.safe_of_reaches hplaced hstands rfl hindent hs, hafter, hlast,
    State.rest_eq_nil (hlast.placed hplaced) hend, ⟨answers, congrArg Prod.fst hsession, hlength, fun n hn => ?_⟩,
    State.isSlice_of_parseModule hstands rfl hread (hafter.placed hplaced) path,
    State.isSlice_of_diagnostics hstands rfl htells (hafter.placed hplaced) hafter.onward path⟩
  have hnode : n ∈ answers.flatMap Option.toList := List.mem_flatMap.mpr ⟨some n, hn, List.mem_singleton_self n⟩
  exact hread.isSlice_node hstands hnode

/-- A part that starts within a line and lacks the end of the file. The third call opens a list that is not
closed, and the last one is not answered by a node. -/
theorem session_safe_part :
    let text := "- ä\n* b.c;d(\n[f]: g\n- h"
    let tokens := ((scan text).drop 6).take 14
    let calls : List Call := [.suffixed false, .statement true, .statement false, .line]
    let start := State.ofTokens (splitComments tokens) 0
    tokens <:+: scan text ∧ (∀ t ∈ tokens, t.kind ≠ .endfile) ∧
    (∀ s, start.Reaches s → s.Safe text (tape (splitComments tokens))) ∧
    (∃ answers, (session calls start).1 = some answers ∧ answers.map Option.isSome = [true, true, true, false] ∧
      ∀ n, some n ∈ answers → ∀ role, ∀ o ∈ Outline.nodesOfAll (n.outlines role), o.span.IsSlice text) ∧
    ∃ d ∈ ((session calls start).2.parseModule "").diagnostics, d.code = some 1005 ∧ d.span.IsSlice text := by
  intro text tokens calls start
  have hpart : tokens <:+: scan text := (List.take_prefix ..).isInfix.trans (List.drop_suffix ..).isInfix
  obtain ⟨hsafe, -, -, -, ⟨answers, hanswers, -, hnodes⟩, -, hreports⟩ := session_safe text "" 0 hpart calls
  have hasked : (session calls start).1.map (·.map Option.isSome) = some [true, true, true, false] := by
    decide +kernel
  have hreport : ∃ d ∈ (lines (session calls start).2).2.reports, d.code = some 1005 := by decide +kernel
  obtain ⟨d, hd, hcode⟩ := hreport
  have hd : d ∈ ((session calls start).2.parseModule "").diagnostics := State.mem_diagnostics.mpr hd
  refine ⟨hpart, by decide +kernel, hsafe, ⟨answers, hanswers, ?_, hnodes⟩, d, hd, hcode, hreports d hd⟩
  rw [hanswers] at hasked
  exact Option.some.inj hasked

end Story
