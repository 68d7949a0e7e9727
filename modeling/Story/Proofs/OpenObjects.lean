import Mathlib.Data.List.Induction
import Story.Proofs.Moves

/-!
# Which objects are open

The objects that are open after a number of lines are kept in a stack: an object line drops what is not
its parent and puts itself on top. Here the stack is told from the history alone, that is from all objects
that were declared, each with its level, whatever became of them since.

* `IndentScope.declared` — the history of a sequence of moves;
* `IndentScope.unshadowed` — the objects of a history after which none of the same or a lower level came.
  These are the open ones (`IndentScope.objects_after`);
* `IndentScope.chain` — the way from a line out to the outermost object, each time to the latest object
  before that is of a lower level. It goes over the open objects only (`IndentScope.chain_eq_filter`), so
  it comes to the parents of the line.

One step of the history is one step of each of these: `unshadowed_append` and `chain_append` say what one
more object does to them.
-/

namespace Story.IndentScope

/-! ### Histories -/

/-- The objects that moves declare, in order, if the first of them are made on a line at `level`. -/
def declared (level : Nat) : List Move → List OpenObject
  | [] => []
  | .enter next :: moves => declared next moves
  | .push key :: moves => ⟨level, key⟩ :: declared level moves

/-- Moves go on at the level that was entered last. -/
theorem declared_append (level : Nat) (moves moves' : List Move) :
    declared level (moves ++ moves') =
      declared level moves ++ declared ((entered moves).getLast?.getD level) moves' := by
  induction moves generalizing level with
  | nil => rfl
  | cons m moves ih =>
    cases m with
    | enter next =>
      change declared next (moves ++ moves') =
        declared next moves ++ declared ((next :: entered moves).getLast?.getD level) moves'
      rw [ih, List.getLast?_cons]
      rfl
    | push key => exact congrArg (⟨level, key⟩ :: ·) (ih level)

/-- The objects of a history after which no object of the same or a lower level was declared. -/
def unshadowed : List OpenObject → List OpenObject
  | [] => []
  | o :: later =>
    if ∀ p ∈ later, o.level < p.level then o :: unshadowed later else unshadowed later

/-- The way back through a history, the latest object first, from a line at `level`: each time to the
next object of a lower level than where the way has come to. -/
def climb (level : Nat) : List OpenObject → List OpenObject
  | [] => []
  | o :: earlier => if o.level < level then o :: climb o.level earlier else climb level earlier

/-- The objects that a line at `level` comes to in this way, outermost first. -/
def chain (level : Nat) (history : List OpenObject) : List OpenObject :=
  (climb level history.reverse).reverse

/-! ### One more object -/

/-- One more object shadows all that are not below it. -/
theorem unshadowed_append (history : List OpenObject) (o : OpenObject) :
    unshadowed (history ++ [o]) =
      ((unshadowed history).filter fun p => decide (p.level < o.level)) ++ [o] := by
  induction history with
  | nil => simp [unshadowed]
  | cons p later ih =>
    -- What is later than `p` now includes `o`.
    have hall : (∀ q ∈ later ++ [o], p.level < q.level) ↔
        (∀ q ∈ later, p.level < q.level) ∧ p.level < o.level := by
      rw [List.forall_mem_append, List.forall_mem_singleton]
    rw [List.cons_append, unshadowed, unshadowed, ih]
    by_cases hlater : ∀ q ∈ later, p.level < q.level
    · by_cases ho : p.level < o.level
      · rw [if_pos (hall.mpr ⟨hlater, ho⟩), if_pos hlater, List.filter_cons_of_pos (by simpa using ho),
          List.cons_append]
      · rw [if_neg fun h => ho (hall.mp h).2, if_pos hlater, List.filter_cons_of_neg (by simpa using ho)]
    · rw [if_neg fun h => hlater (hall.mp h).1, if_neg hlater]

/-- The way starts at the latest object if that is of a lower level, and otherwise before it. -/
theorem chain_append (level : Nat) (history : List OpenObject) (o : OpenObject) :
    chain level (history ++ [o]) =
      if o.level < level then chain o.level history ++ [o] else chain level history := by
  unfold chain
  rw [List.reverse_append, List.reverse_singleton, List.singleton_append, climb]
  split
  · exact List.reverse_cons
  · rfl

/-- Below the lower of two bounds. -/
theorem filter_below_filter_below {level level' : Nat} (h : level ≤ level') (objects : List OpenObject) :
    ((objects.filter fun p => decide (p.level < level')).filter fun p => decide (p.level < level)) =
      objects.filter fun p => decide (p.level < level) := by
  rw [List.filter_filter]
  refine List.filter_congr fun p _ => ?_
  rw [← Bool.decide_and, decide_eq_decide]
  omega

/-- **The way out goes over the open objects:** those of them that are below the line. -/
theorem chain_eq_filter (level : Nat) (history : List OpenObject) :
    chain level history = (unshadowed history).filter fun p => decide (p.level < level) := by
  induction history using List.reverseRecOn generalizing level with
  | nil => rfl
  | append_singleton history o ih =>
    rw [chain_append, unshadowed_append, List.filter_append]
    split
    · next ho =>
      -- From `o` on, the way is that of a line at the level of `o`.
      have hwide : ((unshadowed history).filter fun p => decide (p.level < o.level)) =
          ((unshadowed history).filter fun p => decide (p.level < o.level)).filter
            fun p => decide (p.level < level) := by
        refine (List.filter_eq_self.mpr fun p hp => ?_).symm
        have hp : p.level < o.level := by simpa using (List.mem_filter.mp hp).2
        simpa using Nat.lt_trans hp ho
      rw [ih, List.filter_cons_of_pos (by simpa using ho), List.filter_nil, ← hwide]
    · next ho =>
      rw [ih, filter_below_filter_below (Nat.not_lt.mp ho), List.filter_cons_of_neg (by simpa using ho),
        List.filter_nil, List.append_nil]

/-! ### The stack and its history -/

/-- **The open objects are the unshadowed ones of the history.** -/
theorem objects_after (moves : List Move) :
    (initial.after moves).objects = unshadowed (declared 0 moves) := by
  induction moves using List.reverseRecOn with
  | nil => rfl
  | append_singleton moves m ih =>
    -- By the last move: entering a level opens nothing, and a new object shadows all that are not below it.
    rw [after_append, declared_append]
    cases m with
    | enter level =>
      change (initial.after moves).objects = unshadowed (declared 0 moves ++ [])
      rw [ih, List.append_nil]
    | push key =>
      change ((initial.after moves).push key).objects =
        unshadowed (declared 0 moves ++ [⟨(entered moves).getLast?.getD 0, key⟩])
      rw [objects_push, below, ih, unshadowed_append, level_after]
      rfl

/-- A line that only looks leaves no trace once the next line is entered. -/
theorem after_enters (s : IndentScope) (levels : List Nat) (level : Nat) (later : List Move) :
    s.after (levels.map .enter ++ .enter level :: later) = s.after (.enter level :: later) := by
  induction levels generalizing s with
  | nil => rfl
  | cons n levels ih => exact ih (s.enter n)

/-- **The scope is told by its history.** After any moves from the start, the open objects are those that
none of the same or a lower level was declared after, and their levels increase. So the parents of a line
at any level are what the way back from the line comes to, each time to the latest object of a lower level;
they are the open objects below the line, and the path goes along their keys. Lines that only look
make no difference to whatever comes after them. -/
theorem after_initial_eq (moves : List Move) :
    let s := initial.after moves
    let history := declared 0 moves
    (s.objects.Pairwise fun outer inner => outer.level < inner.level) ∧
    s.objects = unshadowed history ∧
    (∀ level, (s.enter level).parents = chain level history ∧
      (s.enter level).parents = s.objects.filter (fun o => decide (o.level < level)) ∧
      (s.enter level).path =
        "context" ++ String.join ((chain level history).map fun o => "[" ++ o.key ++ "]")) ∧
    ∀ (levels : List Nat) (level : Nat) (later : List Move),
      initial.after (moves ++ (levels.map .enter ++ .enter level :: later)) =
        initial.after (moves ++ .enter level :: later) := by
  intro s history
  have hobjects : s.objects = unshadowed history := objects_after moves
  have hparents (level : Nat) :
      (s.enter level).parents = s.objects.filter fun o => decide (o.level < level) :=
    parents_eq_below (s.enter level)
  have hchain (level : Nat) : (s.enter level).parents = chain level history := by
    rw [hparents, hobjects, chain_eq_filter]
  refine ⟨s.ordered, hobjects, fun level => ⟨hchain level, hparents level, ?_⟩,
    fun levels level later => ?_⟩
  · rw [path, hchain, pathOf, List.map_map]
    rfl
  · rw [after_append, after_append initial moves, after_enters]

/-- An object at level two, two at level one after it, and a line of text at level zero: a line at level
three then belongs to the first object and to the last one. -/
example :
    let moves : List Move := [.push "a", .enter 2, .push "b", .enter 1, .push "c", .push "d", .enter 0]
    ((initial.after moves).enter 3).parents.map OpenObject.key = ["a", "d"] ∧
      (chain 3 (declared 0 moves)).map OpenObject.key = ["a", "d"] := by
  decide

end Story.IndentScope
