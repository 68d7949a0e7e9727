import Story.Proofs.Rewording

/-!
# What is written does not depend on places

A tree tells where its parts stand, and the generator marks its script with these places. The words of the
script do not depend on them: a tree without places gives the same script, up to the marks, and follows
the same indentation scope while it is written.

* `Rewording.unplaced` — words correspond if they are the same, and places always;
* `Writing` — what a part of a story is written as, wherever it is written;
* `Expression.written_eq` — expressions that differ in places only are written the same.
-/

namespace Story

open Script (words marked around)

/-! ### Without places -/

namespace Rewording

/-- The same words, at whatever places. -/
def unplaced (layout : Layout) : Rewording .clear .placeless layout where
  Word := Eq
  Place := fun _ _ => True
  append h h' := congrArg₂ (· ++ ·) h h'
  plain _ := rfl
  indentation := rfl
  newline := rfl
  place _ := trivial
  text _ := rfl
  textLine _ := rfl
  quoted _ := rfl
  name _ := rfl
  nameLiteral _ := rfl
  sameName _ _ := Iff.rfl

/-- Scopes with the same words are the same. -/
theorem scopes_unplaced (layout : Layout) {s t : IndentScope} : (unplaced layout).Scopes s t ↔ s = t := by
  -- Levels and keys are all there is to an open object, and neither is changed.
  have hobjects : (unplaced layout).Objects = Eq := by
    funext x y
    refine propext ⟨fun h => ?_, fun heq => heq ▸ ⟨rfl, rfl⟩⟩
    cases x
    cases y
    exact congrArg₂ OpenObject.mk h.level h.key
  have hall (xs ys : List OpenObject) : List.Forall₂ (unplaced layout).Objects xs ys ↔ xs = ys := by
    rw [hobjects, List.forall₂_eq_eq_eq]
  constructor
  · intro h
    have hobjects := (hall _ _).mp h.objects
    have hlevel := h.level
    cases s
    cases t
    subst hobjects hlevel
    rfl
  · rintro rfl
    exact ⟨rfl, (hall _ _).mpr rfl⟩

end Rewording

/-! ### Texts -/

namespace Script

variable (layout : Layout)

@[simp] theorem text_marked (span : Span) (s : Script) : (marked span s).text layout = s.text layout := by
  simp [text, marked, Piece.toText, String.join_cons]

@[simp] theorem text_words (text : String) : (words text).text layout = text := by
  simp [Script.text, words, Piece.toText, String.join_cons]

@[simp] theorem text_around (before : String) (s : Script) (after : String) :
    (around before s after).text layout = before ++ s.text layout ++ after := by
  simp [around, text_append, String.append_assoc]

end Script

namespace Emit

variable {α β : Type} (x : Emit α) (s : IndentScope)

theorem pure_run (a : α) : (pure a : Emit α) s = (a, s) := rfl

theorem bind_run (f : α → Emit β) : (x >>= f) s = f (x s).1 (x s).2 := rfl

theorem map_run (f : α → β) : (f <$> x) s = (f (x s).1, (x s).2) := rfl

end Emit

/-- Something to be written: its text, by the settings, the margin and the indentation scope that it is
written in; and the scope after it. -/
def Writing : Type := ScriptOptions → Nat → Emit String

namespace Writing

/-- The same words everywhere. -/
def ofText (text : String) : Writing := fun _ _ => return text

/-- What scripts come to. -/
def ofScript (script : ScriptOptions → Nat → Emit Script) : Writing :=
  fun o level => Script.text o.layout <$> script o level

/-- One after the other. -/
instance : Append Writing := ⟨fun v w o level => do return (← v o level) ++ (← w o level)⟩

theorem append_run (v w : Writing) (o : ScriptOptions) (level : Nat) (s : IndentScope) :
    (v ++ w) o level s =
      ((v o level s).1 ++ (w o level (v o level s).2).1, (w o level (v o level s).2).2) := rfl

theorem append_assoc (u v w : Writing) : u ++ v ++ w = u ++ (v ++ w) := by
  funext o level s
  exact Prod.ext (String.append_assoc ..) rfl

/-- The same words before two writings do not hide what differs. -/
theorem append_left_cancel {text : String} {v w : Writing} (h : ofText text ++ v = ofText text ++ w) :
    v = w := by
  funext o level s
  have hrun := congrFun (congrFun (congrFun h o) level) s
  obtain ⟨htext, hscope⟩ := Prod.mk.inj (hrun : (text ++ (v o level s).1, (v o level s).2) =
    (text ++ (w o level s).1, (w o level s).2))
  exact Prod.ext (String.append_right_inj text |>.mp htext) hscope

end Writing

/-- The text of an expression. -/
def Expression.written (e : Expression) : Writing := .ofScript e.script

/-- **Expressions that differ in places only are written the same.** -/
theorem Expression.written_eq {e e' : Expression} (h : e.through .placeless = e'.through .placeless) :
    e.written = e'.written := by
  have hsame (e : Expression) : e.written = (e.through .placeless).written := by
    funext o level s
    have hscripts := Rewording.expression_emits (r := .unplaced o.layout) level e
      ((Rewording.scopes_unplaced o.layout).mpr (rfl : s = s))
    rw [e.through_clear] at hscripts
    exact Prod.ext hscripts.1.text ((Rewording.scopes_unplaced o.layout).mp hscripts.2)
  rw [hsame, h, ← hsame]

end Story
