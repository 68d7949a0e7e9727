import Story.Proofs.Composition

/-!
# What writing a story does to the indentation scope

Writing a part of a story moves the scope: a line enters its level, and an object line then declares
its object. Lines also stand inside expressions, in the blocks of functions, so writing an expression
can move the scope as well, any number of times.

* `IndentScope.Move` and `IndentScope.after` — the two moves, and what a sequence of them leads to;
* `Node.levels` — the levels of all lines at and below a node, in the order in which they are written;
* `Node.WrittenFrom.moves` — writing a node moves the scope, and the moves enter the levels of the node. So the
  level that it leaves, and the objects that it can not have changed, can be read off the tree.
-/

namespace Story

namespace IndentScope

/-! ### Objects below a level -/

/-- The open objects that were declared below a level. -/
def below (s : IndentScope) (level : Nat) : List OpenObject :=
  s.objects.filter fun o => decide (o.level < level)

/-- In an ordered list the elements below a bound come first. -/
theorem takeWhile_eq_filter_of_ordered (level : Nat) {objects : List OpenObject}
    (h : objects.Pairwise fun outer inner => outer.level < inner.level) :
    (objects.takeWhile fun o => decide (o.level < level)) =
      objects.filter fun o => decide (o.level < level) := by
  induction objects with
  | nil => rfl
  | cons o os ih =>
    rw [List.pairwise_cons] at h
    by_cases ho : o.level < level
    · rw [List.takeWhile_cons_of_pos (by simpa using ho), List.filter_cons_of_pos (by simpa using ho),
        ih h.2]
    · -- The first that is not below the bound is at or above it, and the later ones are higher still.
      rw [List.takeWhile_cons_of_neg (by simpa using ho), List.filter_cons_of_neg (by simpa using ho),
        eq_comm, List.filter_eq_nil_iff]
      intro inner hi
      have := h.1 inner hi
      simp only [decide_eq_true_eq]
      omega

/-- The parents of a line are the objects below its level. -/
theorem parents_eq_below (s : IndentScope) : s.parents = s.below s.level :=
  takeWhile_eq_filter_of_ordered s.level s.ordered

theorem objects_push (s : IndentScope) (key : String) :
    (s.push key).objects = s.below s.level ++ [⟨s.level, key⟩] := by
  rw [← parents_eq_below]
  rfl

/-- Declaring an object changes nothing below the level of the line. -/
theorem below_push {s : IndentScope} {level : Nat} (h : level ≤ s.level) (key : String) :
    (s.push key).below level = s.below level := by
  unfold below
  rw [objects_push, List.filter_append, below, List.filter_filter]
  -- The new object stands at the level of the line, and whoever is below `level` is below that.
  have hk : ¬s.level < level := Nat.not_lt.mpr h
  simp only [List.filter_cons, hk, decide_false, Bool.false_eq_true, if_false, List.filter_nil,
    List.append_nil]
  refine List.filter_congr fun o _ => ?_
  rw [← Bool.decide_and, decide_eq_decide]
  omega

/-! ### Moves -/

/-- A change of the scope. -/
inductive Move where
  /-- Look from a line at this level. -/
  | enter (level : Nat)
  /-- Declare an object on the current line. -/
  | push (key : String)

/-- The scope after one move. -/
def move (s : IndentScope) : Move → IndentScope
  | .enter level => s.enter level
  | .push key => s.push key

/-- The scope after several moves. -/
def after (s : IndentScope) (moves : List Move) : IndentScope := moves.foldl move s

/-- The level that a move enters. -/
def Move.entered : Move → Option Nat
  | .enter level => some level
  | .push _ => none

/-- The levels that moves enter, one after the other. -/
def entered (moves : List Move) : List Nat := moves.filterMap Move.entered

theorem after_append (s : IndentScope) (moves moves' : List Move) :
    s.after (moves ++ moves') = (s.after moves).after moves' := List.foldl_append

/-- The level after moves is the one that was entered last. -/
theorem level_after (s : IndentScope) (moves : List Move) :
    (s.after moves).level = (entered moves).getLast?.getD s.level := by
  induction moves generalizing s with
  | nil => rfl
  | cons m moves ih =>
    change ((s.move m).after moves).level = _
    rw [ih]
    cases m with
    | enter level =>
      -- The last level that is entered is that of the later moves, if they enter any.
      change (entered moves).getLast?.getD level = (level :: entered moves).getLast?.getD s.level
      rw [List.getLast?_cons]
      rfl
    | push key => rfl

/-- Objects below all levels that are entered stay open, and no others get among them. -/
theorem below_after {s : IndentScope} {level : Nat} (hs : level ≤ s.level) {moves : List Move}
    (h : ∀ n ∈ entered moves, level ≤ n) : (s.after moves).below level = s.below level := by
  induction moves generalizing s with
  | nil => rfl
  | cons m moves ih =>
    change ((s.move m).after moves).below level = _
    cases m with
    | enter n =>
      -- Entering a level changes no object; the next moves are made at that level.
      have hn : ∀ k ∈ n :: entered moves, level ≤ k := h
      exact ih (hn n List.mem_cons_self) fun k hk => hn k (List.mem_cons_of_mem _ hk)
    | push key => exact (ih (s := s.push key) hs h).trans (below_push hs key)

/-- The scope moves from `s` to `s'`, and enters these levels one after the other. -/
def Moves (s : IndentScope) (levels : List Nat) (s' : IndentScope) : Prop :=
  ∃ moves, entered moves = levels ∧ s' = s.after moves

theorem Moves.trans {s t s' : IndentScope} {ls ls' : List Nat} (h : s.Moves ls t) (h' : t.Moves ls' s') :
    s.Moves (ls ++ ls') s' := by
  obtain ⟨moves, rfl, rfl⟩ := h
  obtain ⟨moves', rfl, rfl⟩ := h'
  exact ⟨moves ++ moves', List.filterMap_append, (after_append s moves moves').symm⟩

end IndentScope

/-! ### Levels of a tree -/

namespace Node

/-- The level that the node itself enters, if it is a line. A comment enters none. -/
def ownLevel : Node → List Nat
  | .line (.comment ..) => []
  | .line l => [l.indent.level]
  | _ => []

/-- The levels of all lines at and below a node, in the order in which they are written. -/
def levels (n : Node) : List Nat :=
  n.ownLevel ++ n.written.attach.flatMap fun c => c.1.levels
termination_by sizeOf n
decreasing_by exact sizeOf_lt_of_mem (mem_children_of_mem_written c.2)

/-- The levels of several nodes. -/
def levelsOf (ns : List Node) : List Nat := ns.flatMap levels

theorem levels_eq (n : Node) : n.levels = n.ownLevel ++ levelsOf n.written := by
  rw [levels, levelsOf]
  simp only [List.flatMap_subtype, List.unattach_attach]

theorem opened_eq (n : Node) (s : IndentScope) : n.opened s = s.after (n.ownLevel.map .enter) := by
  cases n with
  | line l => cases l <;> rfl
  | _ => rfl

/-! ### Writing as moving -/

variable {o : ScriptOptions} {before : List Script} {s s' : IndentScope} {own : Script}

theorem moves_opened (n : Node) : s.Moves n.ownLevel (n.opened s) := by
  refine ⟨n.ownLevel.map .enter, ?_, opened_eq n s⟩
  rw [IndentScope.entered, List.filterMap_map]
  exact List.filterMap_some

/-- If each of several nodes enters its levels, then all of them do, one after the other. -/
theorem Sequence.moves {ns : List Node} {scripts : List Script} (h : Sequence o before s ns scripts s')
    (hns : ∀ n ∈ ns, ∀ {before s own s'}, n.WrittenFrom o before s own s' → s.Moves n.levels s') :
    s.Moves (levelsOf ns) s' := by
  induction h with
  | nil => exact ⟨[], rfl, rfl⟩
  | cons hn _ ih =>
    exact (hns _ List.mem_cons_self hn).trans (ih fun m hm => hns m (List.mem_cons_of_mem _ hm))

/-- **Writing a node enters the levels of its lines,** in the order in which they are written. -/
theorem WrittenFrom.moves {n : Node} (h : n.WrittenFrom o before s own s') : s.Moves n.levels s' := by
  induction n using induction_children generalizing before s own s' with
  | step n ih =>
    obtain ⟨scripts, t, hseq, -, hs'⟩ := h.composed_anyhow
    have hbelow : (n.opened s).Moves (levelsOf n.written) t :=
      hseq.moves fun c hc => ih c (mem_children_of_mem_written hc)
    have hall : s.Moves n.levels t := by
      rw [levels_eq]
      exact (moves_opened n).trans hbelow
    obtain rfl | ⟨key, rfl⟩ := hs'
    · exact hall
    · -- An object is declared without entering a level.
      have hpush : t.Moves [] (t.push key) := ⟨[.push key], rfl, rfl⟩
      rw [← List.append_nil n.levels]
      exact hall.trans hpush

theorem Sequence.moves_all {ns : List Node} {scripts : List Script} (h : Sequence o before s ns scripts s') :
    s.Moves (levelsOf ns) s' := h.moves fun _ _ => WrittenFrom.moves

end Node

open Node (Sequence levelsOf)

/-! ### Object lines -/

namespace Line

variable (o : ScriptOptions) (level : Nat) (key : ObjectKey) (proto : Prototype) (tags : List Tag)
  (value : Option Expression)

/-- The nodes in an object line, in the order in which they are written. -/
def parts : List Node :=
  .key key :: (value.toList.map .expression ++ .prototype proto :: tags.map .tag)

/-- Write the parts of an object line. -/
def writeParts : Emit Unit := do
  let _ ← key.script o level
  let _ ← Expression.scriptOption o level value
  let _ ← proto.script o level []
  let _ ← Tag.scripts o level tags

/-- The parts of an object line are written one after the other. -/
theorem writeParts_moves (s : IndentScope) :
    s.Moves (levelsOf (parts key proto tags value)) ((writeParts o level key proto tags value).run s).2 := by
  generalize hs' : ((writeParts o level key proto tags value).run s).2 = s'
  have hall : (writeParts o level key proto tags value).WritesFrom s () s' := Prod.ext rfl hs'
  obtain ⟨keyScript, t, hkey, h⟩ := hall.bind
  obtain ⟨given, u, hgiven, h⟩ := h.bind
  obtain ⟨whole, v, hwhole, h⟩ := h.bind
  obtain ⟨entries, w, hentries, h⟩ := h.bind
  obtain ⟨-, rfl⟩ := h.pure
  obtain ⟨scripts, htags, -⟩ := Tag.scripts_flat hentries
  have hname : (Node.key key).WrittenFrom o [] s keyScript t := ⟨level, hkey⟩
  have hproto : (Node.prototype proto).WrittenFrom o ([keyScript] ++ given.toList) u whole v :=
    ⟨level, [], hwhole, nofun⟩
  have hseq : Sequence o [] s (parts key proto tags value) (keyScript :: (given.toList ++ whole :: scripts)) s' :=
    .cons hname ((Expression.scriptOption_sequence hgiven).append (.cons hproto htags))
  exact hseq.moves_all

/-- The key of an object line in the scope `s`, as the script writes it between brackets. -/
def keyText (s : IndentScope) : String :=
  Script.text o.layout ((key.script o level).run s).1

/-- An object is declared in the scope that the parts of its line leave, not in that of the line. -/
theorem script_object_scope (s : IndentScope) (span body : Span) (indent : Indent) :
    (((object span indent body key proto tags value).script o level).run s).2 =
      (((writeParts o level key proto tags value).run (s.enter indent.level)).2).push
        (keyText o level key (s.enter indent.level)) := by
  rcases tags with _ | ⟨⟨_, _, _⟩, _⟩ <;> cases proto <;> rfl

/-- The level that the parts of an object line leave is that of the last line among them, and else
that of the object line. -/
theorem level_writeParts (s : IndentScope) :
    ((writeParts o level key proto tags value).run s).2.level =
      (levelsOf (parts key proto tags value)).getLast?.getD s.level := by
  obtain ⟨moves, hm, hs⟩ := writeParts_moves o level key proto tags value s
  rw [hs, IndentScope.level_after, hm]

/-- Lines among the parts of an object line leave the objects below the level of the object line
alone, if none of these lines stands below that level. -/
theorem below_writeParts {s : IndentScope}
    (h : ∀ n ∈ levelsOf (parts key proto tags value), s.level ≤ n) :
    ((writeParts o level key proto tags value).run s).2.below s.level = s.below s.level := by
  obtain ⟨moves, hm, hs⟩ := writeParts_moves o level key proto tags value s
  rw [hs]
  exact IndentScope.below_after (Nat.le_refl _) (hm ▸ h)

/-- **Which objects an object line leaves open.** Let `left` be the scope that the parts of the line
leave, with the lines in them. The line leaves the objects below the level of `left` and its own
object, at that level, which is the level of the last line among the parts. These are the objects
below the line and its own object, at its own level, exactly if `left` has the level of the line and
the same objects below it; if no line among the parts stands below the object line, exactly if the
last of them stands at its level. The lines after it find their parents among these objects. -/
theorem object_line_leaves (s : IndentScope) (span body : Span) (indent : Indent) :
    let after := (((object span indent body key proto tags value).script o level).run s).2
    let left := ((writeParts o level key proto tags value).run (s.enter indent.level)).2
    let name := keyText o level key (s.enter indent.level)
    let inner := levelsOf (parts key proto tags value)
    let nested : Prop :=
      after.objects = s.below indent.level ++ [⟨indent.level, name⟩]
    after.objects = left.below left.level ++ [⟨left.level, name⟩] ∧
      left.level = inner.getLast?.getD indent.level ∧
      (nested ↔ left.level = indent.level ∧ left.below indent.level = s.below indent.level) ∧
      ((∀ n ∈ inner, indent.level ≤ n) → (nested ↔ inner.getLast?.getD indent.level = indent.level)) ∧
      ∀ next, (after.enter next).parents = after.below next := by
  intro after left name inner nested
  have hafter : after.objects = left.below left.level ++ [⟨left.level, name⟩] := by
    dsimp only [after]
    rw [script_object_scope, IndentScope.objects_push]
  have hlevel : left.level = inner.getLast?.getD indent.level :=
    level_writeParts o level key proto tags value (s.enter indent.level)
  have hnested : nested ↔
      left.level = indent.level ∧ left.below indent.level = s.below indent.level := by
    dsimp only [nested]
    rw [hafter]
    constructor
    · intro h
      -- Both lists end in the object of the line, so they agree before it and in its level.
      obtain ⟨hbelow, hlast⟩ := List.append_inj' h rfl
      have hl : left.level = indent.level := congrArg OpenObject.level (List.singleton_inj.mp hlast)
      exact ⟨hl, hl ▸ hbelow⟩
    · rintro ⟨hl, hbelow⟩
      rw [hl, hbelow]
  refine ⟨hafter, hlevel, hnested, fun h => ?_, fun next => ?_⟩
  · have hbelow : left.below indent.level = s.below indent.level :=
      below_writeParts o level key proto tags value h
    rw [hnested, hlevel, and_iff_left hbelow]
  · exact IndentScope.parents_eq_below (after.enter next)

/-- Under an object at level zero, a function whose last line stands at level one makes the object
that it is the value of stand at level one as well, inside the object before it. -/
example :
    let place : Span := .empty .zero
    let body : Block := .template place ⟨place, none⟩ [.text place ⟨place, 2, 1⟩ []]
    let function : Expression := .function place none false false ⟨place, none⟩ [] body
    let line : Line := object place ⟨place, 0, 0⟩ place (.word place "a") .nothing [] (some function)
    (((line.script .standard 0).run (IndentScope.initial.push "'z'")).2).objects =
      [⟨0, "'z'"⟩, ⟨1, "'a'"⟩] := by
  decide

end Line

end Story
