import Mathlib.Logic.Relation
import Story.Proofs.Indents
import Story.Proofs.Mappings
import Story.Proofs.SeenNodes

/-!
# Lines and their mappings

A line of a story that is not code is written on a line of the script, and its first character is mapped to the
line of the source. A mark at the place of the last mark is dropped, so this needs that no two lines start at
one place of the script. Some statements are written as nothing, or as the statements in them, but whatever is
written comes in whole lines:

* `Emit.Writes` — what is written in some scope. `Node.Prints` — what is written in a node at any depth, which
  stands in the script of the node (`Node.Prints.held`);
* `Script.Ended` — whole lines. `Line.script_ended` — a line is written as whole lines;
* `Module.hasLine` — so each line that is written, at any depth, comes right after an end of line;
* `Script.mem_mappings_of_line` — a mark after an end of line and a margin is not dropped, as all marks before
  it are on other lines;
* `Grammar.line_place` — a line is marked where it starts or after its blanks, which is the same line of the
  source (`parseModule_place`);
* `story_lines_mapped` — every line of the story is mapped.
-/

namespace Story

/-! ### What can be written -/

namespace Emit

variable {α β : Type} {x : Emit α} {a : α}

/-- What is written by `x` in some scope. -/
def Writes (x : Emit α) (a : α) : Prop := ∃ scope, (x.run scope).1 = a

theorem Writes.pure {a b : α} (h : (pure a : Emit α).Writes b) : b = a := by
  obtain ⟨_, rfl⟩ := h
  rfl

theorem Writes.bind {f : α → Emit β} {b : β} (h : (x >>= f).Writes b) : ∃ a, x.Writes a ∧ (f a).Writes b := by
  obtain ⟨scope, rfl⟩ := h
  exact ⟨_, ⟨scope, rfl⟩, _, rfl⟩

theorem WritesFrom.writes {s s' : IndentScope} (h : x.WritesFrom s a s') : x.Writes a :=
  ⟨s, congrArg Prod.fst h⟩

theorem Writes.exists_from (h : x.Writes a) : ∃ s s', x.WritesFrom s a s' := by
  obtain ⟨s, rfl⟩ := h
  exact ⟨s, (x.run s).2, Prod.eta _⟩

end Emit

open Emit (Writes)

/-! ### The parts of a script -/

namespace Node

/-- Only lists in brackets are read as arguments. -/
theorem Origin.bracketed {o : Reading} {d : Nat} {n : Node} (h : n.Origin o d) : n.Bracketed := by
  cases n with
  | expression e =>
    cases e with
    | new _ _ b =>
      cases b with
      | none => exact h
      | some => trivial
    | _ => trivial
  | _ => trivial

end Node

/-- Arguments are read between brackets only. -/
theorem State.bracketed_of_mem_nodes {s : State} {path : String} {n : Node}
    (hn : n ∈ (s.parseModule path).module.nodes) : n.Bracketed := by
  obtain ⟨d, horigin⟩ := State.origin_of_mem_nodes hn
  exact horigin.bracketed

namespace Node

variable {o : ScriptOptions} {s : Script} {n m : Node}

/-- The scripts of a node, in any scope. -/
def WrittenAs (o : ScriptOptions) (own : Script) (n : Node) : Prop :=
  ∃ before s s', n.WrittenFrom o before s own s'

/-- **What is written for a node holds what is written for its parts.** -/
theorem WrittenAs.parts (h : n.WrittenAs o s) (hn : n.Bracketed) {c : Node} (hc : c ∈ n.written) :
    ∃ own, c.WrittenAs o own ∧ s.Holds own := by
  obtain ⟨before, scope, scope', h⟩ := h
  obtain ⟨scripts, t, hseq, hown, -⟩ := h.composed_anyhow
  obtain ⟨own, hmem, hwritten⟩ := hseq.mem hc
  exact ⟨own, hwritten, hown.holds hn own hmem⟩

/-- `n.Prints m`: the node `m` is written as a part of `n`, at any depth. -/
def Prints : Node → Node → Prop := Relation.ReflTransGen fun n c => c ∈ n.written

namespace Prints

theorem mem_nodes (h : n.Prints m) : m ∈ n.nodes := by
  induction h with
  | refl => exact self_mem_nodes
  | tail _ hc ih => exact mem_nodes_trans ih (mem_nodes_of_child (mem_children_of_mem_written hc) self_mem_nodes)

/-- **Whatever is a part of a node is written in it.** -/
theorem held (h : n.Prints m) (hn : ∀ k ∈ n.nodes, k.Bracketed) (hs : n.WrittenAs o s) :
    ∃ own, m.WrittenAs o own ∧ s.Holds own := by
  induction h with
  | refl => exact ⟨s, hs, .refl s⟩
  | @tail b c hb hc ih =>
    obtain ⟨own, hown, hheld⟩ := ih
    obtain ⟨part, hpart, hin⟩ := hown.parts (hn b (mem_nodes hb)) hc
    exact ⟨part, hpart, hheld.trans hin⟩

end Prints

end Node

/-! ### Lines -/

namespace Script

variable {s t own : Script}

/-- Nothing, or whole lines. -/
def Ended (s : Script) : Prop := ∀ piece ∈ s.getLast?, piece = .lineBreak

theorem ended_nil : Ended [] := nofun

theorem ended_line (level : Nat) (s : Script) : (line level s).Ended := by
  intro piece hpiece
  rw [line, ← List.cons_append, List.getLast?_concat] at hpiece
  exact (Option.mem_some.mp hpiece).symm

theorem Ended.append (hs : s.Ended) (ht : t.Ended) : (s ++ t).Ended := by
  intro piece hpiece
  rw [List.getLast?_append] at hpiece
  -- The last piece is that of the second script, if that has any.
  cases hlast : t.getLast? with
  | none =>
    rw [hlast] at hpiece
    exact hs piece hpiece
  | some last =>
    rw [hlast] at hpiece
    exact ht piece (hlast.trans hpiece)

/-- **The script has `own` on lines of its own:** it starts after the end of a line. -/
def HasLine (s own : Script) : Prop := ∃ above below, s = above ++ .lineBreak :: (own ++ below)

theorem HasLine.holds (h : s.HasLine own) : s.Holds own := by
  obtain ⟨above, below, rfl⟩ := h
  exact ⟨above ++ [.lineBreak], below, by simp⟩

theorem Holds.hasLine (h : s.Holds t) (ht : t.HasLine own) : s.HasLine own := by
  obtain ⟨before, after, rfl⟩ := h
  obtain ⟨above, below, rfl⟩ := ht
  exact ⟨before ++ above, below ++ after, by simp⟩

theorem Ended.exists_eq (h : s.Ended) (hs : s ≠ []) : ∃ above, s = above ++ [.lineBreak] := by
  obtain rfl | ⟨above, last, rfl⟩ := List.eq_nil_or_concat' s
  · exact absurd rfl hs
  · exact ⟨above, by rw [h last (by rw [List.getLast?_concat]; rfl)]⟩

/-- After whole lines a line starts, and so it does after the end of a line. -/
theorem Ended.hasLine (h : s.Ended) (own below : Script) :
    Script.HasLine (.lineBreak :: (s ++ (own ++ below))) own := by
  by_cases hs : s = []
  · rw [hs]
    exact ⟨[], below, rfl⟩
  · obtain ⟨above, rfl⟩ := h.exists_eq hs
    exact ⟨.lineBreak :: above, below, by simp⟩

end Script

open Script (Ended)

variable {o : ScriptOptions} {level : Nat} {s : Script}

theorem Statement.onLine_ended {own inner : Emit Script} (t : Statement) (hinner : ∀ s, inner.Writes s → s.Ended)
    (h : (t.onLine level own inner).Writes s) : s.Ended := by
  unfold Statement.onLine at h
  -- Imports and placeholders are written as nothing, and a block without a scope as its statements.
  split at h
  · cases h.pure
    exact Script.ended_nil
  · cases h.pure
    exact Script.ended_nil
  · exact hinner s h
  · obtain ⟨script, -, h⟩ := h.bind
    cases h.pure
    exact Script.ended_line level script

mutual

/-- Statements are written as whole lines. -/
theorem Statement.lines_ended (level : Nat) : (ss : List Statement) → ∀ s, (Statement.lines o level ss).Writes s →
    s.Ended
  | [], s, h => by
    cases h.pure
    exact Script.ended_nil
  | t :: ss, s, h => by
    obtain ⟨first, hfirst, h⟩ := Writes.bind h
    obtain ⟨rest, hrest, h⟩ := Writes.bind h
    cases h.pure
    exact (Statement.onLine_ended t (Statement.inner_ended level t) hfirst).append
      (Statement.lines_ended level ss rest hrest)

theorem Statement.inner_ended (level : Nat) : (t : Statement) → ∀ s, (t.inner o level).Writes s → s.Ended
  | .block (.code _ _ statements _), s, h => Statement.lines_ended level statements s h
  | .block (.template ..), s, h | .expression _, s, h | .variable .., s, h | .function .., s, h | .ifElse .., s, h
  | .switch .., s, h | .label .., s, h | .whileLoop .., s, h | .doLoop .., s, h | .forLoop .., s, h
  | .forIn .., s, h | .forOf .., s, h | .attempt .., s, h | .throw .., s, h | .imported _, s, h | .leave .., s, h
  | .next .., s, h | .result .., s, h | .debugger _, s, h | .empty _, s, h | .missing _, s, h => by
    cases h.pure
    exact Script.ended_nil

end

/-- A line is written as whole lines. -/
theorem Line.script_ended (l : Line) (h : (l.script o level).Writes s) : s.Ended := by
  cases l with
  | object span indent body key proto tags value =>
    iterate 8 obtain ⟨_, -, h⟩ := Writes.bind h
    -- Tags are written on a line of their own.
    rcases tags with _ | ⟨⟨span, _, _⟩, tags⟩
    · cases h.pure
      exact Script.ended_line _ _
    · cases h.pure
      exact (Script.ended_line _ _).append (Script.ended_line _ _)
  | delete =>
    iterate 3 obtain ⟨_, -, h⟩ := Writes.bind h
    cases h.pure
    exact Script.ended_line _ _
  | code span indent statement =>
    obtain ⟨_, -, h⟩ := Writes.bind h
    exact Statement.onLine_ended statement (Statement.inner_ended level statement) h
  | text =>
    iterate 3 obtain ⟨_, -, h⟩ := Writes.bind h
    cases h.pure
    exact Script.ended_line _ _
  | comment =>
    cases h.pure
    exact Script.ended_line _ _

/-- Of several lines each one starts after whole lines. -/
theorem Line.scripts_split {ls : List Line} (h : (Line.scripts o level ls).Writes s) {l : Line} (hl : l ∈ ls) :
    ∃ own above below, (l.script o level).Writes own ∧ above.Ended ∧ s = above ++ (own ++ below) := by
  induction ls generalizing s with
  | nil => cases hl
  | cons k ls ih =>
    obtain ⟨first, hfirst, h⟩ := Writes.bind h
    obtain ⟨rest, hrest, h⟩ := Writes.bind h
    cases h.pure
    -- It is the first line, or it comes after the lines before it.
    obtain rfl | hl := List.mem_cons.mp hl
    · exact ⟨first, [], rest, hfirst, Script.ended_nil, rfl⟩
    · obtain ⟨own, above, below, hown, hended, rfl⟩ := ih hrest hl
      exact ⟨own, first ++ above, below, hown, (Line.script_ended k hfirst).append hended, by simp⟩

/-- Lines are parts of blocks only. -/
theorem Node.eq_template_of_line_mem {b : Node} {l : Line} (h : .line l ∈ b.written) :
    ∃ span brackets lines, b = .block (.template span brackets lines) ∧ l ∈ lines := by
  have h := mem_children_of_mem_written h
  cases b with
  | expression e => cases e <;> simp [children, Expression.children] at h
  | property p => cases p <;> simp [children, Property.children] at h
  | statement t => cases t <;> simp [children, Statement.children] at h
  | block b =>
    cases b with
    | code => simp [children] at h
    | template span brackets lines =>
      exact ⟨span, brackets, lines, rfl, by simpa [children] using h⟩
  | part x | parameter x | declarator x | head x | clause x | key x | tag x | prototype x | line x =>
    cases x <;> simp [children] at h

/-- The lines of a block stand on lines of their own. -/
theorem Block.hasLine {span : Span} {brackets : Brackets} {lines : List Line} {l : Line} (hl : l ∈ lines)
    (h : (Node.block (.template span brackets lines)).WrittenAs o s) :
    ∃ level own, (l.script o level).Writes own ∧ s.HasLine own := by
  obtain ⟨_, _, _, ⟨level, h⟩ | ⟨_, _, _, _, _, heq, -⟩⟩ := h
  · obtain ⟨inside, hinside, h⟩ := Writes.bind h.writes
    cases h.pure
    obtain ⟨own, above, below, hown, hended, rfl⟩ := Line.scripts_split hinside hl
    refine ⟨level + 1, own, hown, Script.Holds.hasLine ?_ (hended.hasLine own below)⟩
    -- The opening brace ends its line.
    refine Script.Holds.append_left (Script.Holds.append_left ?_ _) _
    rw [List.append_assoc]
    exact (Script.Holds.refl _).append_right _
  · cases heq

namespace Module

/-- The lines of a story come after whole lines. -/
theorem script_eq (o : ScriptOptions) (m : Module) :
    ∃ above below, m.script o = above ++ .lineBreak :: (((Line.scripts o 0 m.lines).run .initial).1 ++ below) := by
  -- Every import is a line.
  have himports : ∀ is : List Import, Ended (is.flatMap Import.script) := by
    intro is
    induction is with
    | nil => exact Script.ended_nil
    | cons i is ih => exact (Script.ended_line 0 _).append ih
  have hpreamble : o.preamble.Ended :=
    ((Script.ended_line 0 _).append (Script.ended_line 0 _)).append (Script.ended_line 0 _)
  have hne : o.preamble ++ (Import.effective [] m.imports).flatMap Import.script ≠ [] :=
    List.append_ne_nil_of_left_ne_nil (List.cons_ne_nil _ _) _
  obtain ⟨above, habove⟩ := (hpreamble.append (himports _)).exists_eq hne
  refine ⟨above, Script.line 0 (Script.words "module.exports = context;"), ?_⟩
  rw [Module.script, habove, List.append_assoc, List.append_assoc]
  rfl

/-- **Every line that is written in a story stands on a line of its own.** -/
theorem hasLine {m : Module} (hm : ∀ n ∈ m.nodes, n.Bracketed) {top l : Line} (htop : top ∈ m.lines)
    (h : (Node.line top).Prints (.line l)) :
    ∃ level own, (l.script o level).Writes own ∧ (m.script o).HasLine own := by
  have hlines : (Line.scripts o 0 m.lines).Writes ((Line.scripts o 0 m.lines).run .initial).1 := ⟨_, rfl⟩
  obtain ⟨own, before, after, hown, hended, hsplit⟩ := Line.scripts_split hlines htop
  have hscript : (m.script o).Holds (.lineBreak :: (before ++ (own ++ after))) := by
    obtain ⟨above, below, hscript⟩ := m.script_eq o
    rw [hscript, hsplit]
    exact ((Script.Holds.refl _).append_left below).append_right above
  have hline := hscript.hasLine (hended.hasLine own after)
  obtain heq | ⟨b, hb, hl⟩ := Relation.ReflTransGen.cases_tail h
  · cases heq
    exact ⟨0, own, hown, hline⟩
  · -- The line stands in a block, and the block is written somewhere in the line on top.
    obtain ⟨span, brackets, lines, rfl, hmem⟩ := Node.eq_template_of_line_mem hl
    have hbelow : ∀ k ∈ (Node.line top).nodes, k.Bracketed :=
      fun k hk => hm k (List.mem_flatMap.mpr ⟨top, htop, hk⟩)
    obtain ⟨scope, scope', hfrom⟩ := hown.exists_from
    have htopAs : (Node.line top).WrittenAs o own := ⟨[], scope, scope', 0, hfrom⟩
    obtain ⟨block, hblock, hheld⟩ := Node.Prints.held hb hbelow htopAs
    obtain ⟨level, inner, hinner, hhas⟩ := Block.hasLine hmem hblock
    exact ⟨level, inner, hinner, (hline.holds.trans hheld).hasLine hhas⟩

end Module

/-! ### Marks at the start of a line -/

theorem Cursor.cursor_mapping (c : Cursor) (source : Position) : (c.mapping source).cursor = c := rfl

namespace Script

/-- The place that a script leads to, as it is counted piece by piece. -/
def stop (layout : Layout) (s : Script) : Cursor := s.foldl (Cursor.after layout) ⟨0, 0⟩

/-- For a regular layout that is where its text leads to. -/
theorem stop_eq_ofText {layout : Layout} (h : layout.Regular) (s : Script) :
    stop layout s = Cursor.ofText (text layout s) := foldl_after h ⟨0, 0⟩ s

/-- Some pieces and then others: the marks of the others are mapped from where the first ones lead to, and
no mark before them is behind that place. -/
theorem mappingsFrom_append (layout : Layout) (front rest : Script) {c : Cursor} {last : Option Cursor}
    (hlast : ∀ l ∈ last, l ≤ c) :
    ∃ ms last', mappingsFrom layout c last (front ++ rest) =
        ms ++ mappingsFrom layout (front.foldl (Cursor.after layout) c) last' rest ∧
      ∀ l ∈ last', l ≤ front.foldl (Cursor.after layout) c := by
  induction front generalizing c last with
  | nil => exact ⟨[], last, rfl, hlast⟩
  | cons piece front ih =>
    cases piece with
    | mark source =>
      rw [List.cons_append, mappingsFrom]
      split_ifs
      · exact ih hlast
      · -- The mark is the last one for what follows.
        have hself : ∀ l ∈ some c, l ≤ c := fun l hl => (Option.mem_some.mp hl).ge
        obtain ⟨ms, last', heq, hle⟩ := ih hself
        exact ⟨c.mapping source :: ms, last', congrArg (c.mapping source :: ·) heq, hle⟩
    | text | lineBreak | margin => exact ih fun l hl => (hlast l hl).trans (c.le_after layout _)

/-- **A mark at the start of a line is mapped:** all marks before it are on other lines, so it is not at the
place of the last one. -/
theorem mem_mappings_of_line (layout : Layout) (above below : Script) (level : Nat) (source : Position) :
    (stop layout (above ++ [.lineBreak, .margin level])).mapping source ∈
      mappings layout (above ++ .lineBreak :: .margin level :: .mark source :: below) := by
  have hnone : ∀ l ∈ (none : Option Cursor), l ≤ ⟨0, 0⟩ := nofun
  obtain ⟨ms, last, heq, hlast⟩ := mappingsFrom_append layout above
    (.lineBreak :: .margin level :: .mark source :: below) hnone
  rw [mappings, heq, stop, List.foldl_append]
  refine List.mem_append_right ms ?_
  generalize above.foldl (Cursor.after layout) ⟨0, 0⟩ = c at hlast
  change _ ∈ ite (last = some ((c.after layout .lineBreak).after layout (.margin level))) _ _
  -- The end of the line leads away from `c`, and the last mark is not behind `c`.
  have hnew : last ≠ some ((c.after layout .lineBreak).after layout (.margin level)) :=
    fun hsome => (hlast _ hsome).not_gt (Cursor.lt_iff.mpr (.inl (Nat.lt_succ_self _)))
  rw [if_neg hnew]
  exact List.mem_cons_self

end Script

/-! ### Lines of the story itself -/

namespace Line

/-- Whether the line is of the story itself: text, an object, a deletion or a comment, and no code. -/
def isStory : Line → Bool
  | .code .. => false
  | .object .. | .delete .. | .text .. | .comment .. => true

/-- The place that is marked for a line. -/
def place : Line → Position
  | .object _ _ body .. | .delete _ _ body _ => body.start
  | .code span .. | .text span .. | .comment span .. => span.start

/-- A line of the story is written from its mark on, and the first words are not empty. -/
theorem script_marked {l : Line} (hl : l.isStory = true) (h : (l.script o level).Writes s) :
    ∃ first rest, s = .margin level :: .mark l.place :: .text first :: rest ∧ first ≠ "" := by
  cases l with
  | object span indent body key proto tags value =>
    iterate 8 obtain ⟨_, -, h⟩ := Writes.bind h
    rcases tags with _ | ⟨⟨span, _, _⟩, tags⟩
    · cases h.pure
      exact ⟨_, _, rfl, by simp⟩
    · cases h.pure
      exact ⟨_, _, rfl, by simp⟩
  | delete =>
    iterate 3 obtain ⟨_, -, h⟩ := Writes.bind h
    cases h.pure
    exact ⟨_, _, rfl, by simp⟩
  | code => cases hl
  | text =>
    iterate 3 obtain ⟨_, -, h⟩ := Writes.bind h
    cases h.pure
    exact ⟨_, _, rfl, by simp⟩
  | comment =>
    cases h.pure
    exact ⟨_, _, rfl, by simp⟩

end Line

/-! ### Places of lines in a story -/

namespace Position

theorem line_foldl_step {chars : List Char} (h : '\n' ∉ chars) (p : Position) : (chars.foldl step p).line = p.line := by
  induction chars generalizing p with
  | nil => rfl
  | cons c cs ih =>
    obtain ⟨hc, hcs⟩ := not_or.mp (mt List.mem_cons.mpr h)
    rw [List.foldl_cons, ih hcs, step, if_neg (Ne.symm hc)]

end Position

/-- The blanks before a line do not end it. -/
theorem State.Inside.line_skipBlanks {source : String} {indentSize d : Nat} {s : State}
    (hs : (State.ofText source indentSize).Inside d s) : s.skipBlanks.position.line = s.position.line := by
  have hplaced := (State.placed_ofText source indentSize).spot.onward hs.onward
  obtain ⟨ts, hts, hpath, -⟩ := hplaced.path_read (State.extends_skipWhile _ s).onward
  -- What is read are the blanks, and none of them is an end of a line.
  have hblanks : ts = s.rest.takeWhile fun t => t.kind.isBlank :=
    List.append_cancel_right (hts.symm.trans List.takeWhile_append_dropWhile.symm)
  have hline : '\n' ∉ (Token.joined ts).toList := by
    rw [hblanks, ← hs.slice_indent.2]
    intro hmem
    obtain hc | hc := hs.blank_slice_indent _ hmem
    · cases hc
    · cases hc
  rw [show s.skipBlanks.position = _ from hpath.stop_eq_advance]
  exact Position.line_foldl_step hline _

namespace Grammar

open Story.Parser

variable {g : Nested} {s s' : State} {l : Line}

theorem deleteLine_place (h : deleteLine g s = (some l, s')) : l.place = s.skipBlanks.position := by
  obtain ⟨indent, h⟩ := indented_eq_some h
  obtain ⟨keyword, _, hkeyword, h⟩ := bind_eq_some.mp h
  iterate 2 obtain ⟨_, _, -, h⟩ := bind_eq_some.mp h
  obtain ⟨body, _, ⟨⟩, h⟩ := bind_eq_some.mp h
  iterate 2 obtain ⟨_, _, -, h⟩ := bind_eq_some.mp h
  cases h
  obtain ⟨-, rfl, -⟩ := eatWord_eq_some.mp hkeyword
  rfl

theorem objectLine_place (h : objectLine g s = (some l, s')) : l.place = s.skipBlanks.position := by
  obtain ⟨indent, h⟩ := indented_eq_some h
  obtain ⟨bodyStart, _, ⟨⟩, h⟩ := bind_eq_some.mp h
  iterate 6 obtain ⟨_, _, -, h⟩ := bind_eq_some.mp h
  obtain ⟨body, _, ⟨⟩, h⟩ := bind_eq_some.mp h
  iterate 2 obtain ⟨_, _, -, h⟩ := bind_eq_some.mp h
  cases h
  rfl

/-- All other lines are marked where they start. -/
theorem indented_place {k : Position → Indent → Parser Line}
    (hk : ∀ start indent, (k start indent).Gives State.Anyhow fun l => l.place = l.span.start)
    (h : (do let start ← position; let indent ← indentation; k start indent) s = (some l, s')) :
    l.place = l.span.start :=
  hk s.position s.indent trivial h

/-- **A line is marked where it starts, or after its blanks.** -/
theorem line_place (h : line g s = (some l, s')) :
    l.place = l.span.start ∨ l.place = s.skipBlanks.position := by
  have h := rewind_eq_some.mp h
  -- In the order in which they are tried: code blocks, deletions, objects, statements, comments, text.
  obtain h | ⟨-, h⟩ := orElse_eq_some.mp h
  · left
    refine indented_place (fun _ _ => ?_) h
    iterate 4 refine gives_skip fun _ => ?_
    exact gives_pure rfl
  obtain h | ⟨-, h⟩ := orElse_eq_some.mp h
  · exact .inr (deleteLine_place h)
  obtain h | ⟨-, h⟩ := orElse_eq_some.mp h
  · exact .inr (objectLine_place h)
  left
  obtain h | ⟨-, h⟩ := orElse_eq_some.mp h
  · refine indented_place (fun _ _ => ?_) h
    iterate 6 refine gives_skip fun _ => ?_
    exact gives_pure rfl
  obtain h | ⟨-, h⟩ := orElse_eq_some.mp h
  · refine indented_place (fun _ _ => ?_) h
    iterate 6 refine gives_skip fun _ => ?_
    exact gives_pure rfl
  · refine indented_place (fun _ _ => ?_) h
    iterate 4 refine gives_skip fun _ => ?_
    exact gives_pure rfl

end Grammar

/-- A line of a story is marked on the line of the source that it starts on. -/
theorem parseModule_place {text path : String} {indentSize : Nat} {top l : Line}
    (htop : top ∈ (parseModule text path indentSize).module.lines) (hl : .line l ∈ (Node.line top).nodes) :
    l.place.line = l.span.start.line := by
  obtain ⟨d, hwithin⟩ := Node.mem_nodes.mp hl
  obtain ⟨g, s, s', hs, hline⟩ := State.parseModule_sound _ path top htop d _ hwithin
  obtain ⟨t, hread, -⟩ := Grammar.line_readUpTo hline
  obtain hplace | hplace := Grammar.line_place hline
  · rw [hplace]
  · rw [hplace, hread.span]
    exact hs.line_skipBlanks

/-! ### Mappings of lines -/

/-- **How a line is mapped.** The script is `before`, what is written for the line, and what comes below. Here
`before` ends with an end of line and a margin of `level` units. The mapping ties the place that `before` leads
to, where the first character for the line is, to the line of the source. -/
structure Line.MappedAt (o : ScriptOptions) (m : Module) (l : Line) (level : Nat) (before own below : Script)
    (x : Mapping) : Prop where
  script : m.script o = before ++ own ++ below
  text : (generate o m).script = before.text o.layout ++ own.text o.layout ++ below.text o.layout
  margin : [.lineBreak, .margin level] <:+ before
  written : (l.script o level).Writes (.margin level :: own)
  nonempty : own.text o.layout ≠ ""
  source : x.source = some 0
  sourceLine : x.sourceLine = l.span.start.line
  place : x.cursor = Script.stop o.layout before
  counted : o.layout.Regular → x.cursor = Cursor.ofText (before.text o.layout)

/-- A line of the story that is written and marked on its own line is mapped. -/
theorem Module.line_mapped {m : Module} (hm : ∀ n ∈ m.nodes, n.Bracketed) {top l : Line} (htop : top ∈ m.lines)
    (hprints : (Node.line top).Prints (.line l)) (hl : l.isStory = true) (hplace : l.place.line = l.span.start.line) :
    ∃ x ∈ (generate o m).mappings, ∃ level before own below, l.MappedAt o m level before own below x := by
  obtain ⟨level, written, hwritten, above, below, hscript⟩ := Module.hasLine (o := o) hm htop hprints
  obtain ⟨first, rest, rfl, hfirst⟩ := Line.script_marked hl hwritten
  -- The line of the script that it starts, with the mark at its margin.
  have hparts : m.script o =
      above ++ [.lineBreak, .margin level] ++ (.mark l.place :: .text first :: rest) ++ below := by
    rw [hscript]
    simp
  have hmapped := Script.mem_mappings_of_line o.layout above (.text first :: (rest ++ below)) level l.place
  refine ⟨(Script.stop o.layout (above ++ [.lineBreak, .margin level])).mapping l.place, ?_, level, _, _, below,
    hparts, ?_, ⟨above, rfl⟩, hwritten, ?_, rfl, hplace, Cursor.cursor_mapping _ _, fun h => ?_⟩
  · rw [generate, hscript]
    exact hmapped
  · rw [generate, hparts, Script.text_append, Script.text_append]
  · simp [Script.text, Piece.toText, String.join_cons, hfirst]
  · rw [Cursor.cursor_mapping, Script.stop_eq_ofText h]

/-- **Every line of the story is mapped,** at the top of the story and in the blocks of lines that are written:
there is a mapping from the first character that is written for it, after the margin, to its line of the
source. -/
theorem story_lines_mapped (text path : String) (indentSize : Nat) (o : ScriptOptions) :
    let m := (parseModule text path indentSize).module
    ∀ top ∈ m.lines, ∀ l, (Node.line top).Prints (.line l) → l.isStory = true →
      ∃ x ∈ (generate o m).mappings, ∃ level before own below, l.MappedAt o m level before own below x := by
  intro m top htop l hprints hl
  have hbracketed : ∀ n ∈ m.nodes, n.Bracketed := fun n hn => State.bracketed_of_mem_nodes hn
  have hplace : l.place.line = l.span.start.line := parseModule_place htop hprints.mem_nodes
  exact Module.line_mapped hbracketed htop hprints hl hplace

/-- The lines of the block after an `if` are written. -/
theorem Line.prints_of_mem_bodyLines {l m : Line} (hm : m ∈ l.bodyLines) : (Node.line l).Prints (.line m) := by
  unfold bodyLines at hm
  split at hm
  · next lines _ =>
    -- From the line in to its statement, the body of the `if`, the block, and its lines.
    refine .head (b := .statement (.ifElse _ _ (.block (.template _ _ lines)) _)) List.mem_cons_self ?_
    refine .head (b := .statement (.block (.template _ _ lines))) (List.mem_cons_of_mem _ List.mem_cons_self) ?_
    refine .head (b := .block (.template _ _ lines)) List.mem_cons_self ?_
    exact .single (List.mem_map_of_mem hm)
  · cases hm

/-- A deletion in two blocks. -/
theorem story_lines_mapped_nested :
    let m := (parseModule "* if (a) \x7b\n  * if (b) \x7b\n    delete hero\n  * \x7d\n* \x7d\n" "" 2).module
    ∃ top ∈ m.lines, ∃ l, (Node.line top).Prints (.line l) ∧ l.isStory = true ∧ l.span.start.line = 2 ∧
      ∃ x ∈ (generate .standard m).mappings, x.sourceLine = 2 ∧
        ∃ level before own below, l.MappedAt .standard m level before own below x := by
  intro m
  have hlines : ∃ top ∈ m.lines, ∃ k ∈ top.bodyLines, ∃ l ∈ k.bodyLines,
      l.isStory = true ∧ l.span.start.line = 2 := by
    decide +kernel
  obtain ⟨top, htop, k, hk, l, hl, hstory, hline⟩ := hlines
  have hprints : (Node.line top).Prints (.line l) :=
    (Line.prints_of_mem_bodyLines hk).trans (Line.prints_of_mem_bodyLines hl)
  obtain ⟨x, hx, level, before, own, below, hmapped⟩ :=
    story_lines_mapped _ "" 2 .standard top htop l hprints hstory
  exact ⟨top, htop, l, hprints, hstory, hline, x, hx, hmapped.sourceLine.trans hline, level, before, own, below,
    hmapped⟩

end Story
