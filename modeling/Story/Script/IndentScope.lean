import Story.Text.Column

/-!
# Indentation scopes

Objects of a story nest by indentation. An `IndentScope` holds the objects that are open: each was
declared on a line of some level, and belongs to the open objects of a lower level before it. The
level of the current line decides which of them are its parents.

A line that declares an object replaces the open objects by its parents and itself (`push`). All
other lines only look: a shallow line of text leaves the deeper objects open for the lines after it.
-/

namespace Story

/-- An open object. -/
structure OpenObject where
  /-- The level of the line that declared it. -/
  level : Nat
  /-- Its key as the script writes it between brackets. -/
  key : String
deriving DecidableEq

/-- The open objects, outermost first, and the level of the current line. Each object was declared
at a higher level than the objects around it. -/
structure IndentScope where
  /-- The open objects, outermost first. -/
  objects : List OpenObject
  /-- The level of the current line. -/
  level : Nat
  ordered : objects.Pairwise fun outer inner => outer.level < inner.level
deriving DecidableEq

namespace IndentScope

/-- Nothing is open before the first line. -/
def initial : IndentScope := ⟨[], 0, .nil⟩

/-- Look from a line at `level`. -/
def enter (s : IndentScope) (level : Nat) : IndentScope := { s with level }

/-- The objects that the current line belongs to: those open from the outermost on, as long as they
were declared at a lower level. -/
def parents (s : IndentScope) : List OpenObject :=
  s.objects.takeWhile fun o => decide (o.level < s.level)

theorem level_lt_of_mem_parents {s : IndentScope} {o : OpenObject} (h : o ∈ s.parents) :
    o.level < s.level := by
  simpa using List.all_eq_true.mp List.all_takeWhile o h

/-- The current line declares an object: it stays open, with the parents of the line. -/
def push (s : IndentScope) (key : String) : IndentScope where
  objects := s.parents ++ [⟨s.level, key⟩]
  level := s.level
  ordered := by
    refine List.pairwise_append.mpr ⟨?_, List.pairwise_singleton .., ?_⟩
    · exact s.ordered.sublist (List.takeWhile_sublist _)
    · intro o ho _ hl
      rw [List.mem_singleton.mp hl]
      -- The parents are those that were declared at a lower level.
      exact level_lt_of_mem_parents ho

/-- How the script reaches a property that is nested under the given keys. -/
def pathOf (keys : List String) : String :=
  "context" ++ String.join (keys.map fun key => "[" ++ key ++ "]")

/-- How the script reaches the innermost parent of the current line. -/
def path (s : IndentScope) : String := pathOf (s.parents.map OpenObject.key)

/-- How the script reaches a property of the innermost parent. -/
def childPath (s : IndentScope) (key : String) : String := s.path ++ "[" ++ key ++ "]"

/-- The columns of indentation that the parents account for. A text that is indented further keeps
the rest as leading blanks. -/
def ownedWidth (s : IndentScope) (indentSize : Nat) : Nat :=
  match s.parents.getLast? with
  | none => 0
  | some o => wrapped (wrapped (o.level + 1) * indentSize)

end IndentScope

end Story
