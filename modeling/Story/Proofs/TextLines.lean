import Story.Proofs.Origins
import Story.Proofs.Places
import Story.Proofs.Templates
import Story.Script.Generate

/-!
# Text lines in the generated script

A text line of a story becomes a template literal of the generated script. This file follows the words
of a line from the tokens that they are made of to what the literal is read as.

* `Grammar.textRound_cases` — what reading one token of a text line comes to; from it, what holds of the
  words of a text line if it holds of the tokens of the story (`Grammar.line_words`);
* `TextPart.stretches` — the words and the codes that the literal is put together from, and
  `TextPart.text_scripts`: it is;
* `TextPart.Meets` — the one thing that goes wrong. Words are escaped chunk by chunk, and a dollar sign
  at the end of a chunk is escaped only if the brace after it is in the same chunk.
-/

namespace Story

open Story.Parser Story.Grammar

/-! ### The words of a text -/

/-- The words of a part satisfy `Q`, if it has any. -/
def TextPart.WordsSatisfy (Q : String → Prop) : TextPart → Prop
  | .chunk _ text => Q text
  | .splice .. => True

namespace Grammar

variable {Q : String → Prop} {g : Nested} {o : State} {d : Nat}

/-- The words that have been read satisfy `Q`, those of the pending chunk too. -/
structure Content.WordsSatisfy (Q : String → Prop) (c : Content) : Prop where
  parts : ∀ p ∈ c.parts, p.WordsSatisfy Q
  pending : ∀ p ∈ c.pending, Q p.2

namespace Content.WordsSatisfy

variable {c : Content}

theorem empty : Content.WordsSatisfy Q .empty := ⟨List.forall_mem_nil _, fun _ h => nomatch h⟩

theorem flush (h : c.WordsSatisfy Q) (stop : Position) : (c.flush stop).WordsSatisfy Q := by
  unfold Content.flush
  split
  · exact h
  · next start text hp =>
    exact ⟨List.forall_mem_cons.mpr ⟨h.pending _ hp, h.parts⟩, fun _ hp => nomatch hp⟩

theorem extend (h : c.WordsSatisfy Q) (happend : ∀ a b, Q a → Q b → Q (a ++ b)) (start : Position)
    {text : String} (ht : Q text) : (c.extend start text).WordsSatisfy Q := by
  unfold Content.extend
  split
  · exact ⟨h.parts, forall_mem_some ht⟩
  · next first before hp => exact ⟨h.parts, forall_mem_some (happend _ _ (h.pending _ hp) ht)⟩

theorem add (h : c.WordsSatisfy Q) {p : TextPart} (hp : p.WordsSatisfy Q) : (c.add p).WordsSatisfy Q :=
  ⟨List.forall_mem_cons.mpr ⟨hp, h.parts⟩, h.pending⟩

theorem finish (h : c.WordsSatisfy Q) (stop : Position) : ∀ p ∈ c.finish stop, p.WordsSatisfy Q :=
  fun p hp => (h.flush stop).parts p (List.mem_reverse.mp hp)

end Content.WordsSatisfy

theorem splice_words : (splice g).Gives (o.From d) (TextPart.WordsSatisfy Q) := by
  unfold splice
  refine gives_skip fun star => gives_skip fun _ => gives_skip fun value => ?_
  refine gives_skip fun _ => ?_
  exact gives_pure trivial

/-- At a star there is a value, or else the star goes with the words. -/
theorem starOrSplice_cases {c c' : Content} {s s' : State}
    (h : starOrSplice g c s = (some c', s')) :
    (∃ part, splice g s = (some part, s') ∧ c' = (c.flush s.position).add part) ∨
      ((splice g s).1 = none ∧ s' = s.advance ∧ c' = c.extend s.position s.current.text) := by
  unfold starOrSplice at h
  rw [look_bind_run] at h
  obtain ⟨r, t, hr, h⟩ := bind_eq_some.mp h
  obtain ⟨part, rfl, hpart⟩ | ⟨rfl, hnone, rfl⟩ := attempt_eq_some.mp hr
  · cases h
    exact .inl ⟨part, hpart, rfl⟩
  · cases h
    exact .inr ⟨hnone, rfl, rfl⟩

/-- **One token of a text line.** The line ends; or a backslash is dropped, with the token after it taken
as it stands; or there is a value; or the token goes with the words. -/
theorem textRound_cases {c : Content} {s s' : State} {r : Round Content (List TextPart)}
    (h : textRound g c s = (some r, s')) :
    (s.isLineEnd = true ∧ s' = s ∧ r = .done (c.finish s.position)) ∨
      (s.kind = .backslash ∧ s.advance.isLineEnd = true ∧ s' = s.advance ∧
        r = .again (c.flush s.position)) ∨
      (s.kind = .backslash ∧ s.advance.isLineEnd = false ∧ s' = s.advance.advance ∧
        r = .again ((c.flush s.position).extend s.advance.position s.advance.current.text)) ∨
      (s.kind = .star ∧ ∃ part, splice g s = (some part, s') ∧
        r = .again ((c.flush s.position).add part)) ∨
      (s.isLineEnd = false ∧ s.kind ≠ .backslash ∧ (s.kind = .star → (splice g s).1 = none) ∧
        s' = s.advance ∧ r = .again (c.extend s.position s.current.text)) := by
  unfold textRound at h
  obtain ⟨_, _, ⟨⟩, h⟩ := bind_eq_some.mp h
  split at h
  · -- The end of the line.
    next hend =>
    cases h
    exact .inl ⟨hend, rfl, rfl⟩
  next hend =>
  split at h
  · -- A backslash, at the end of the line or with a token after it.
    next hslash =>
    obtain ⟨_, _, ⟨⟩, h⟩ := bind_eq_some.mp h
    obtain ⟨_, _, ⟨⟩, h⟩ := bind_eq_some.mp h
    split at h
    · next hnext =>
      cases h
      exact .inr (.inl ⟨hslash, hnext, rfl, rfl⟩)
    · next hnext =>
      cases h
      exact .inr (.inr (.inl ⟨hslash, eq_false_of_ne_true hnext, rfl, rfl⟩))
  next hslash =>
  split at h
  · -- A star, with a value after it or without one.
    next hstar =>
    obtain ⟨c', _, hc', h⟩ := bind_eq_some.mp h
    cases h
    obtain ⟨part, hpart, rfl⟩ | ⟨hnone, rfl, rfl⟩ := starOrSplice_cases hc'
    · exact .inr (.inr (.inr (.inl ⟨hstar, part, hpart, rfl⟩)))
    · exact .inr (.inr (.inr (.inr ⟨eq_false_of_ne_true hend, hslash, fun _ => hnone, rfl, rfl⟩)))
  · next hstar =>
    cases h
    exact .inr (.inr (.inr (.inr
      ⟨eq_false_of_ne_true hend, hslash, fun hs => absurd hs hstar, rfl, rfl⟩)))

/-- A line of text was read as one: the other five kinds of lines are tried before it, and none of them makes
a text. -/
theorem textLine_of_line {s s' : State} {span : Span} {indent : Indent} {parts : List TextPart}
    (h : line g s = (some (.text span indent parts), s')) :
    textLine g s = (some (.text span indent parts), s') := by
  -- What another kind of line reads is never a text.
  have other {p : Parser Line}
      (hp : p.Gives State.Anyhow fun l => ∀ span indent parts, l ≠ .text span indent parts) :
      p s ≠ (some (.text span indent parts), s') :=
    fun hread => hp trivial hread span indent parts rfl
  have h := rewind_eq_some.mp h
  obtain h | ⟨-, h⟩ := orElse_eq_some.mp h
  · refine absurd h (other ?_)
    unfold codeBlockLine
    iterate 6 refine gives_skip fun _ => ?_
    exact gives_pure nofun
  obtain h | ⟨-, h⟩ := orElse_eq_some.mp h
  · refine absurd h (other ?_)
    unfold deleteLine
    iterate 8 refine gives_skip fun _ => ?_
    exact gives_pure nofun
  obtain h | ⟨-, h⟩ := orElse_eq_some.mp h
  · refine absurd h (other ?_)
    unfold objectLine
    iterate 12 refine gives_skip fun _ => ?_
    exact gives_pure nofun
  obtain h | ⟨-, h⟩ := orElse_eq_some.mp h
  · refine absurd h (other ?_)
    unfold statementLine
    iterate 8 refine gives_skip fun _ => ?_
    exact gives_pure nofun
  obtain h | ⟨-, h⟩ := orElse_eq_some.mp h
  · refine absurd h (other ?_)
    unfold commentLine
    iterate 8 refine gives_skip fun _ => ?_
    exact gives_pure nofun
  · exact h

section Words

variable (happend : ∀ a b, Q a → Q b → Q (a ++ b)) (htokens : ∀ t ∈ o.rest, Q t.text)

include happend htokens

theorem textRound_words {c : Content} (hc : c.WordsSatisfy Q) :
    (textRound g c).Gives (o.From d)
      (Round.Satisfies (Content.WordsSatisfy Q) fun ps => ∀ p ∈ ps, p.WordsSatisfy Q) := by
  intro s r s' hs h
  obtain ⟨-, -, rfl⟩ | ⟨-, -, -, rfl⟩ | ⟨-, hend, -, rfl⟩ | ⟨-, part, hpart, rfl⟩ |
    ⟨hend, -, -, -, rfl⟩ := textRound_cases h
  · exact hc.finish _
  · exact hc.flush _
  · -- After a backslash it is the next token that has to be one of the text.
    have hmem : s.advance.current ∈ o.rest :=
      ((Step.advance.extended s).rest.trans hs.rest).subset (State.current_mem_rest hend)
    exact (hc.flush _).extend happend _ (htokens _ hmem)
  · exact (hc.flush _).add (splice_words hs hpart)
  · exact hc.extend happend _ (htokens _ (hs.rest.subset (State.current_mem_rest hend)))

/-- The words of a text line satisfy what the tokens of the story do. -/
theorem line_words :
    (line g).Gives (o.From d) fun l => ∀ span indent parts, l = .text span indent parts →
      ∀ p ∈ parts, p.WordsSatisfy Q := by
  have content : (textContent g).Gives (o.From d) fun ps => ∀ p ∈ ps, p.WordsSatisfy Q :=
    gives_repeated (fun _ hc => textRound_words happend htokens hc) .empty
  have text : (textLine g).Gives (o.From d) fun l => ∀ span indent parts, l = .text span indent parts →
      ∀ p ∈ parts, p.WordsSatisfy Q := by
    unfold textLine
    iterate 3 refine gives_skip fun _ => ?_
    refine content.bind fun parts hp => ?_
    refine gives_skip fun _ => gives_skip fun _ => ?_
    refine gives_pure ?_
    rintro span indent _ ⟨⟩
    exact hp
  rintro s l s' hs h span indent parts rfl
  exact text hs (textLine_of_line h) span indent parts rfl

end Words

end Grammar

/-- The tokens that a story is read from are not empty, and their characters are those of the text. -/
theorem State.ofText_tokens {source : String} {indentSize : Nat} {t : Token}
    (ht : t ∈ (State.ofText source indentSize).rest) :
    t.text.toList ≠ [] ∧ ∀ c ∈ t.text.toList, c ∈ source.toList := by
  have hof := State.isOf_ofText ht
  exact ⟨fun hnil => hof.nonempty (String.ext hnil), hof.chars⟩

/-! ### The literal of a text line -/

theorem Script.toList_text (layout : Layout) (script : Script) :
    (Script.text layout script).toList = script.flatMap fun p => (p.toText layout).toList := by
  rw [Script.text, String.toList_join, List.flatMap_map]

open Script (words marked around)

namespace TextPart

/-- A chunk that ends in a dollar sign right before one that starts with a brace. -/
def Meets : TextPart → TextPart → Prop
  | .chunk _ text, .chunk _ next => text.toList.getLast? = some '$' ∧ next.toList.head? = some '\x7b'
  | _, _ => False

instance : DecidableRel Meets
  | .chunk .., .chunk .. => inferInstanceAs (Decidable (_ ∧ _))
  | .chunk .., .splice .. | .splice .., _ => .isFalse id

variable (o : ScriptOptions) (level : Nat)

/-- The stretch of a literal that a part becomes: its words, or the code that turns its value into
text. -/
def stretch : TextPart → Emit Stretch
  | .chunk _ text => return .words text.toList
  | .splice _ value => do
    let inner ← value.script o level
    return .code ("serializer.serialize(" ++ inner.text o.layout ++ ", '\\r\\n')").toList

/-- The stretches of a literal. -/
def stretches : List TextPart → Emit (List Stretch)
  | [] => return []
  | p :: ps => do
    let first ← p.stretch o level
    let rest ← stretches ps
    return first :: rest

/-- The codes in a literal, one for each value, where it is written in the scope `s`. -/
def codes (ps : List TextPart) (s : IndentScope) : List (List Char) :=
  ((stretches o level ps).run s).1.filterMap Stretch.code?

section Escape

variable (escape : List Char → List Char)

/-- A part is written as its stretch is, and moves the scope as it does. -/
theorem text_script (p : TextPart) (s : IndentScope) :
    (Script.text o.layout ((p.script o level fun text => .ofList (escape text.toList)).run s).1).toList =
        ((p.stretch o level).run s).1.writtenBy escape ∧
      ((p.script o level fun text => .ofList (escape text.toList)).run s).2 =
        ((p.stretch o level).run s).2 := by
  cases p with
  | chunk span text =>
    refine ⟨?_, rfl⟩
    change (Script.text o.layout (marked span (words (.ofList (escape text.toList))))).toList =
      escape text.toList
    rw [Script.toList_text]
    simp [marked, words, Piece.toText]
  | splice span value =>
    refine ⟨?_, rfl⟩
    -- The value is written as it is, between the signs that splice it in.
    generalize hinner : ((value.script o level).run s).1 = inner
    have hscript : ((TextPart.script o level (fun text => .ofList (escape text.toList))
        (.splice span value)).run s).1 =
        marked span (around "$\x7bserializer.serialize(" inner ", '\\r\\n')\x7d") := hinner ▸ rfl
    have hstretch : ((stretch o level (.splice span value)).run s).1 =
        .code ("serializer.serialize(" ++ inner.text o.layout ++ ", '\\r\\n')").toList := hinner ▸ rfl
    rw [hscript, hstretch, Stretch.writtenBy]
    simp [marked, around, words, Piece.toText, Script.toList_text]

/-- **The inside of a literal is written as its stretches are,** however its words are prepared. -/
theorem text_scripts_by (ps : List TextPart) (s : IndentScope) :
    (Script.text o.layout
        ((scripts o level (fun text => .ofList (escape text.toList)) ps).run s).1).toList =
      ((stretches o level ps).run s).1.flatMap (Stretch.writtenBy escape) := by
  -- How the words are prepared does not matter to where the stretches are.
  generalize hescape : (fun text : String => String.ofList (escape text.toList)) = prepare
  induction ps generalizing s with
  | nil => rfl
  | cons p ps ih =>
    obtain ⟨htext, hscope⟩ := text_script o level escape p s
    rw [hescape] at htext hscope
    calc
      (Script.text o.layout ((scripts o level prepare (p :: ps)).run s).1).toList
        = (Script.text o.layout (((p.script o level prepare).run s).1 ++
            ((scripts o level prepare ps).run ((p.script o level prepare).run s).2).1)).toList :=
          rfl
      _ = (Script.text o.layout ((p.script o level prepare).run s).1).toList ++
          (Script.text o.layout ((scripts o level prepare ps).run
            ((p.script o level prepare).run s).2).1).toList := by
          simp only [Script.toList_text, List.flatMap_append]
      _ = ((p.stretch o level).run s).1.writtenBy escape ++
          ((stretches o level ps).run ((p.stretch o level).run s).2).1.flatMap
            (Stretch.writtenBy escape) := by
          rw [htext, ih, hscope]
      _ = ((stretches o level (p :: ps)).run s).1.flatMap (Stretch.writtenBy escape) := rfl

end Escape

theorem text_scripts (ps : List TextPart) (s : IndentScope) :
    (Script.text o.layout ((scripts o level escapeText ps).run s).1).toList =
      ((stretches o level ps).run s).1.flatMap Stretch.written :=
  text_scripts_by o level escapeTextChars ps s

/-- What stretches next to each other have in common is what their parts have, if it does not depend on where
the parts are written. -/
theorem isChain_stretches_iff {R : Stretch → Stretch → Prop} {S : TextPart → TextPart → Prop}
    (h : ∀ p q s s', R ((p.stretch o level).run s).1 ((q.stretch o level).run s').1 ↔ S p q)
    (ps : List TextPart) (s : IndentScope) : ((stretches o level ps).run s).1.IsChain R ↔ ps.IsChain S := by
  induction ps generalizing s with
  | nil => exact iff_of_true .nil .nil
  | cons p ps ih =>
    cases ps with
    | nil => exact iff_of_true (.singleton _) (.singleton _)
    | cons q qs =>
      refine .trans List.isChain_cons_cons (.trans ?_ List.isChain_cons_cons.symm)
      exact and_congr (h p q _ _) (ih _)

/-- Stretches meet where their parts do. -/
theorem isChain_stretches (ps : List TextPart) (s : IndentScope) :
    (((stretches o level ps).run s).1.IsChain fun t next => ¬t.Meets next) ↔
      ps.IsChain fun p next => ¬p.Meets next := by
  refine isChain_stretches_iff o level (fun p q s s' => not_congr ?_) ps s
  cases p <;> cases q <;> exact Iff.rfl

/-- A literal is readable if its words are and the reader finds the ends of its codes. -/
theorem readable_stretches {r : CodeReader} {ps : List TextPart} (s : IndentScope)
    (hwords : ∀ p ∈ ps, p.WordsSatisfy fun text => text.toList ≠ [] ∧ '\r' ∉ text.toList)
    (hcodes : ∀ code ∈ codes o level ps s, r.Finds code) :
    ∀ t ∈ ((stretches o level ps).run s).1, t.Readable r := by
  induction ps generalizing s with
  | nil => exact List.forall_mem_nil _
  | cons p ps ih =>
    obtain ⟨hp, hps⟩ := List.forall_mem_cons.mp hwords
    cases p with
    -- Words have to be readable themselves, a value is found by its code.
    | chunk span text => exact List.forall_mem_cons.mpr ⟨hp, ih s hps hcodes⟩
    | splice span value =>
      obtain ⟨hcode, hcodes⟩ := List.forall_mem_cons.mp hcodes
      exact List.forall_mem_cons.mpr ⟨hcode, ih _ hps hcodes⟩

end TextPart

namespace Line

variable (o : ScriptOptions) (level : Nat) (scope : IndentScope)

/-- What a line of text consists of. -/
def text? : Line → Option (Span × Indent × List TextPart)
  | .text span indent parts => some (span, indent, parts)
  | _ => none

theorem text?_eq_some {l : Line} {span : Span} {indent : Indent} {parts : List TextPart} :
    l.text? = some (span, indent, parts) ↔ l = .text span indent parts := by
  cases l <;> simp [text?]

/-- The script of a text line up to and with the back-tick that opens its literal. -/
def literalOpening : String :=
  String.join (List.replicate level o.layout.indentation) ++ scope.path ++ "['__text'] = [..." ++
    scope.path ++ "['__text'], \x60"

/-- What the literal of a text line is meant to be: blanks for the columns that no object owns, the words
of the line and the code of each value. -/
def literalItems (indent : Indent) (parts : List TextPart) : List TemplateItem :=
  List.replicate (indent.width - scope.ownedWidth o.indentSize) (.char ' ') ++
    ((TextPart.stretches o level parts).run scope).1.flatMap Stretch.items

/-- The script of a text line: its opening, blanks, the stretches of its literal, and its end. -/
theorem text_script (span : Span) (indent : Indent) (parts : List TextPart) :
    (Script.text o.layout (((Line.text span indent parts).script o level).run scope).1).toList =
      (literalOpening o level (scope.enter indent.level)).toList ++
        (List.replicate (indent.width - (scope.enter indent.level).ownedWidth o.indentSize) ' ' ++
          (((TextPart.stretches o level parts).run (scope.enter indent.level)).1.flatMap
            Stretch.written ++ '\x60' :: ("];" ++ o.layout.newline).toList)) := by
  -- All is written after the level of the line has been entered.
  generalize hinner : scope.enter indent.level = inner
  rw [← TextPart.text_scripts]
  have hscript : (((Line.text span indent parts).script o level).run scope).1 =
      Script.line level (marked span (around (inner.path ++ "['__text']" ++ " = [..." ++
        (inner.path ++ "['__text']") ++ ", \x60" ++
          "".pushn ' ' (indent.width - inner.ownedWidth o.indentSize))
        ((TextPart.scripts o level escapeText parts).run inner).1 "\x60];")) := hinner ▸ rfl
  have hblanks (n : Nat) : ("".pushn ' ' n).toList = List.replicate n ' ' := by
    rw [String.pushn_eq_repeat_push]
    induction n with
    | zero => rfl
    | succ n ih => rw [Nat.repeat, String.toList_push, ih, List.replicate_succ']
  rw [hscript]
  simp [Script.toList_text, Script.line, marked, around, words, Piece.toText, literalOpening, hblanks]

/-- **A text line becomes its literal text, unless a dollar sign meets a brace.** This is about every text
line of a story without carriage returns, however deep it stands, and about every scope that it is
written in. After the opening of its literal, what is read up to the back-tick that ends the literal is
what was meant, and the end of the line comes after it, if and only if no chunk that ends in a dollar
sign is followed by a chunk that starts with a brace: these two start a substitution that nobody wrote.
One chunk follows another where a backslash was dropped. -/
theorem text_literal_read_iff {source path : String} {indentSize : Nat}
    (hreturn : '\r' ∉ source.toList) {l : Line}
    (hl : l ∈ (parseModule source path indentSize).module.lines) {d : Nat} {span : Span}
    {indent : Indent} {parts : List TextPart}
    (hw : Node.Within d (.line l) (.line (.text span indent parts))) {r : CodeReader}
    (hcodes : ∀ code ∈ TextPart.codes o level parts (scope.enter indent.level), r.Finds code) :
    ∃ body,
      (Script.text o.layout (((Line.text span indent parts).script o level).run scope).1).toList =
        (literalOpening o level (scope.enter indent.level)).toList ++ body ∧
      (readTemplate r body = some (literalItems o level (scope.enter indent.level) indent parts,
          ("];" ++ o.layout.newline).toList) ↔
        parts.IsChain fun p next => ¬p.Meets next) := by
  -- The words of the line are made of tokens of the text: no chunk is empty or has a carriage return.
  have hwords : ∀ p ∈ parts,
      p.WordsSatisfy fun text => text.toList ≠ [] ∧ '\r' ∉ text.toList := by
    obtain ⟨g, s, s', hs, hline⟩ := State.parseModule_sound _ path l hl d _ hw
    refine line_words ?_ ?_ hs hline span indent parts rfl
    · intro a b ha hb
      simp [ha, hb]
    · intro t ht
      obtain ⟨hne, hchars⟩ := State.ofText_tokens ht
      exact ⟨hne, fun hmem => hreturn (hchars _ hmem)⟩
  refine ⟨_, text_script o level scope span indent parts, ?_⟩
  -- The blanks come back in any case, and the rest if and only if no two stretches meet.
  rw [readTemplate_blanks, literalItems, withItems_eq_some,
    readTemplate_stretches_iff (TextPart.readable_stretches o level _ hwords hcodes),
    TextPart.isChain_stretches]

/-- A line with a back-tick, a dollar sign before a value, a brace after a dropped backslash, and a dollar
sign before a brace within one chunk. -/
theorem text_literal_read_iff_dollars :
    '\r' ∉ "a \x60$*x\\\x7b $\x7b\n".toList ∧ ∃ span indent parts body,
      .text span indent parts ∈ (parseModule "a \x60$*x\\\x7b $\x7b\n" "" 2).module.lines ∧
      parts.length = 3 ∧
      (Script.text ⟨"  ", "\n"⟩ (((Line.text span indent parts).script .standard 0).run .initial).1).toList =
        (literalOpening .standard 0 (IndentScope.initial.enter indent.level)).toList ++ body ∧
      readTemplate .upToBrace body =
        some (literalItems .standard 0 (IndentScope.initial.enter indent.level) indent parts,
          "];\n".toList) := by
  have hreturn : '\r' ∉ "a \x60$*x\\\x7b $\x7b\n".toList := by decide
  have hline : ∃ t ∈ (parseModule "a \x60$*x\\\x7b $\x7b\n" "" 2).module.lines.filterMap text?,
      t.2.2.length = 3 ∧ (t.2.2.IsChain fun p next => ¬p.Meets next) ∧
        ∀ code ∈ TextPart.codes .standard 0 t.2.2 (IndentScope.initial.enter t.2.1.level),
          '\x7d' ∉ code := by
    decide +kernel
  obtain ⟨⟨span, indent, parts⟩, ht, hlength, hchain, hcodes⟩ := hline
  obtain ⟨l, hl, htext⟩ := List.mem_filterMap.mp ht
  obtain rfl := text?_eq_some.mp htext
  obtain ⟨body, hbody, hread⟩ := text_literal_read_iff .standard 0 .initial hreturn hl (.self _)
    fun code hcode => CodeReader.upToBrace_finds (hcodes code hcode)
  exact ⟨hreturn, span, indent, parts, body, hl, hlength, hbody, hread.mpr hchain⟩

/-- The dollar sign and the brace of this line are in two chunks. -/
example : ¬∀ t ∈ (parseModule "$\\\x7bx\x7d\n" "" 2).module.lines.filterMap text?,
    t.2.2.IsChain fun p next => ¬p.Meets next := by
  decide +kernel

end Line

end Story
