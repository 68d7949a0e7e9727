import Mathlib.Data.List.Forall2
import Mathlib.Data.Option.Basic
import Story.Proofs.Lens
import Story.Script.Generate

/-!
# Scripts of trees that look alike

A tree may be seen through two lenses, and then two scripts are written of it. A `Rewording` says how the
words and the places of the one correspond to those of the other. If the words of a story do, and words that
are put together do, then the whole scripts do: the generator handles all words alike.

* `Rewording` — which words and places correspond. Words on one line (`isPlain`), such as those that the
  generator puts in itself, correspond to themselves;
* `Rewording.Scripts` — scripts that correspond piece by piece, and `Rewording.Scopes` — indentation scopes
  that correspond object by object;
* `Rewording.Emits` — writing that keeps scopes corresponding;
* `Rewording.line_emits` and its like — one lemma for each type of a tree, with one case for each kind of
  node. `Rewording.module_scripts` puts them together.
-/

namespace Story

open Script (words marked commas around braced)

/-- Whether no line ends in the words. -/
def isPlain (text : String) : Bool := text.toList.all fun c => c != '\n' && c != '\r'

/-- **How the words of one script correspond to those of another.** The scripts are written of a tree that is
seen through `l` and through `m`. -/
structure Rewording (l m : Lens) (layout : Layout) where
  /-- Words that correspond. -/
  Word : String → String → Prop
  /-- Places that correspond. -/
  Place : Position → Position → Prop
  append {a b c d : String} (h : Word a b) (h' : Word c d) : Word (a ++ c) (b ++ d)
  plain {t : String} (h : isPlain t = true) : Word t t
  indentation : Word layout.indentation layout.indentation
  newline : Word layout.newline layout.newline
  place (p : Position) : Place (l.position p) (m.position p)
  text (t : String) : Word (l.text t) (m.text t)
  textLine (t : String) : Word (escapeText (l.text t)) (escapeText (m.text t))
  quoted (t : String) : Word (escapeString (l.text t)) (escapeString (m.text t))
  name (t : String) : Word (l.name t) (m.name t)
  nameLiteral (t : String) : Word (quoteName (l.name t)) (quoteName (m.name t))
  sameName (s t : String) : l.name s = l.name t ↔ m.name s = m.name t

/-! ### What the generator asks of a tree -/

section

variable (l : Lens)

theorem UnaryOperator.needsBlank_through (operator : UnaryOperator) (e : Expression) :
    operator.needsBlank (e.through l) = operator.needsBlank e := by
  cases e with
  | unary _ sign => cases operator <;> cases sign <;> rfl
  | update _ sign isBefore => cases operator <;> cases sign <;> cases isBefore <;> rfl
  | _ => cases operator <;> rfl

theorem Expression.isObject_through (e : Expression) : (e.through l).isObject = e.isObject := by
  cases e <;> rfl

theorem Statement.isBlock_through (s : Statement) : (s.through l).isBlock = s.isBlock := by
  cases s <;> rfl

theorem Block.span_through (b : Block) : (b.through l).span = b.span.through l := by
  cases b <;> rfl

theorem areRaw_eq (m : Lens) (ds : List Declarator) :
    Declarator.areRaw (Declarator.allThrough l ds) = Declarator.areRaw (Declarator.allThrough m ds) := by
  have hraw (l : Lens) (d : Declarator) : (d.through l).name.isRaw = d.name.isRaw := by
    cases d
    rfl
  rw [Declarator.allThrough_eq_map, Declarator.allThrough_eq_map, Declarator.areRaw, Declarator.areRaw,
    List.all_map, List.all_map]
  simp only [Function.comp_def, hraw, List.isEmpty_map]

theorem Import.binding_through (i : Import) : (i.through l).binding = l.name i.binding := by
  obtain ⟨_, _, _, _ | _, _⟩ := i <;> rfl

end

namespace Rewording

variable {l m : Lens} {layout : Layout} (r : Rewording l m layout)

/-! ### Scripts -/

/-- Pieces that correspond. -/
inductive Pieces : Piece → Piece → Prop where
  | text {a b : String} (h : r.Word a b) : Pieces (.text a) (.text b)
  | lineBreak : Pieces .lineBreak .lineBreak
  | margin (level : Nat) : Pieces (.margin level) (.margin level)
  | mark {p q : Position} (h : r.Place p q) : Pieces (.mark p) (.mark q)

/-- Scripts that correspond piece by piece. -/
abbrev Scripts : Script → Script → Prop := List.Forall₂ r.Pieces

variable {r} {a b a' b' : Script} {before before' after after' : String}

theorem Scripts.append (h : r.Scripts a b) (h' : r.Scripts a' b') : r.Scripts (a ++ a') (b ++ b') :=
  List.rel_append h h'

theorem scripts_words (h : r.Word before after) : r.Scripts (words before) (words after) := .cons (.text h) .nil

/-- Words of the generator's own. -/
theorem scripts_plain {t : String} (h : isPlain t = true) : r.Scripts (words t) (words t) :=
  scripts_words (r.plain h)

theorem Scripts.marked (h : r.Scripts a b) (span : Span) :
    r.Scripts (marked (span.through l) a) (marked (span.through m) b) := .cons (.mark (r.place _)) h

theorem Scripts.around (h : r.Scripts a b) (hbefore : r.Word before before') (hafter : r.Word after after') :
    r.Scripts (around before a after) (around before' b after') :=
  ((scripts_words hbefore).append h).append (scripts_words hafter)

theorem scripts_commas {as bs : List Script} (h : List.Forall₂ r.Scripts as bs) :
    r.Scripts (commas as) (commas bs) := by
  induction h with
  | nil => exact .nil
  | cons hfirst hrest ih =>
    cases hrest with
    | nil => simpa [commas] using hfirst
    | cons =>
      rw [commas, commas, List.intercalate_cons_cons, List.intercalate_cons_cons]
      exact (hfirst.append (scripts_plain (t := ", ") rfl)).append ih

theorem Scripts.braced (h : r.Scripts a b) (level : Nat) : r.Scripts (braced level a) (braced level b) :=
  ((((scripts_plain rfl).append (.cons .lineBreak .nil)).append h).append
    (.cons (.margin level) .nil)).append (scripts_plain rfl)

theorem Scripts.line (h : r.Scripts a b) (level : Nat) :
    r.Scripts (Script.line level a) (Script.line level b) :=
  .cons (.margin level) (h.append (.cons .lineBreak .nil))

theorem word_join {as bs : List String} (h : List.Forall₂ r.Word as bs) :
    r.Word (String.join as) (String.join bs) := by
  induction h with
  | nil => exact r.plain rfl
  | cons hfirst _ ih =>
    rw [String.join_cons, String.join_cons]
    exact r.append hfirst ih

/-- The texts of corresponding scripts correspond. -/
theorem Scripts.text (h : r.Scripts a b) : r.Word (a.text layout) (b.text layout) := by
  refine word_join (List.forall₂_map_left_iff.mpr (List.forall₂_map_right_iff.mpr (h.imp fun p q hpq => ?_)))
  cases hpq with
  | text h => exact h
  | lineBreak => exact r.newline
  | margin level =>
    exact word_join (List.forall₂_same.mpr fun t ht => List.eq_of_mem_replicate ht ▸ r.indentation)
  | mark => exact r.plain (t := "") rfl

/-! ### Scopes -/

variable (r) in
/-- Open objects at the same level whose keys correspond. -/
structure Objects (x y : OpenObject) : Prop where
  level : x.level = y.level
  key : r.Word x.key y.key

variable (r) in
/-- Indentation scopes that correspond object by object. -/
structure Scopes (s t : IndentScope) : Prop where
  level : s.level = t.level
  objects : List.Forall₂ r.Objects s.objects t.objects

namespace Scopes

variable {s t : IndentScope}

theorem initial : r.Scopes .initial .initial := ⟨rfl, .nil⟩

theorem enter (h : r.Scopes s t) (level : Nat) : r.Scopes (s.enter level) (t.enter level) := ⟨rfl, h.objects⟩

theorem parents (h : r.Scopes s t) : List.Forall₂ r.Objects s.parents t.parents := by
  -- Objects correspond level by level, so the same number of them is below the line.
  have htaken {xs ys : List OpenObject} (hall : List.Forall₂ r.Objects xs ys) :
      List.Forall₂ r.Objects (xs.takeWhile fun x => decide (x.level < t.level))
        (ys.takeWhile fun y => decide (y.level < t.level)) := by
    induction hall with
    | nil => exact .nil
    | cons hxy _ ih =>
      rw [List.takeWhile_cons, List.takeWhile_cons, hxy.level]
      split
      · exact .cons hxy ih
      · exact .nil
  rw [IndentScope.parents, IndentScope.parents, h.level]
  exact htaken h.objects

theorem path (h : r.Scopes s t) : r.Word s.path t.path := by
  refine r.append (r.plain rfl) (word_join ?_)
  rw [List.map_map, List.map_map]
  refine List.forall₂_map_left_iff.mpr (List.forall₂_map_right_iff.mpr (h.parents.imp fun x y hxy => ?_))
  exact r.append (r.append (r.plain rfl) hxy.key) (r.plain rfl)

theorem childPath (h : r.Scopes s t) (hkey : r.Word before after) :
    r.Word (s.childPath before) (t.childPath after) :=
  r.append (r.append (r.append h.path (r.plain rfl)) hkey) (r.plain rfl)

theorem push (h : r.Scopes s t) (hkey : r.Word before after) : r.Scopes (s.push before) (t.push after) :=
  ⟨h.level, List.rel_append h.parents (.cons ⟨h.level, hkey⟩ .nil)⟩

theorem ownedWidth_eq (h : r.Scopes s t) (indentSize : Nat) :
    s.ownedWidth indentSize = t.ownedWidth indentSize := by
  -- Only the level of the last parent counts.
  have hlast {xs ys : List OpenObject} (hall : List.Forall₂ r.Objects xs ys) :
      Option.Rel r.Objects xs.getLast? ys.getLast? := by
    induction hall with
    | nil => exact .none
    | cons hxy hrest ih =>
      cases hrest with
      | nil => exact .some hxy
      | cons => rwa [List.getLast?_cons_cons, List.getLast?_cons_cons]
  have hsame := hlast h.parents
  rw [IndentScope.ownedWidth, IndentScope.ownedWidth]
  generalize s.parents.getLast? = x at hsame
  generalize t.parents.getLast? = y at hsame
  cases hsame with
  | none => rfl
  | some hxy => exact congrArg (fun level => wrapped (wrapped (level + 1) * indentSize)) hxy.level

end Scopes

/-! ### Writing -/

variable {α β γ δ : Type} {R : α → β → Prop} {S : γ → δ → Prop}

variable (r) in
/-- **In corresponding scopes both write something related, and the scopes correspond again.** -/
def Emits (R : α → β → Prop) (x : Emit α) (y : Emit β) : Prop :=
  ∀ ⦃s t : IndentScope⦄, r.Scopes s t → R (x s).1 (y t).1 ∧ r.Scopes (x s).2 (y t).2

theorem emits_pure {a : α} {b : β} (h : R a b) : r.Emits R (pure a) (pure b) := fun _ _ hst => ⟨h, hst⟩

theorem Emits.bind {x : Emit α} {y : Emit β} {f : α → Emit γ} {g : β → Emit δ} (h : r.Emits R x y)
    (hf : ∀ a b, R a b → r.Emits S (f a) (g b)) : r.Emits S (x >>= f) (y >>= g) :=
  fun _ _ hst => hf _ _ (h hst).1 (h hst).2

theorem emits_get : r.Emits r.Scopes get get := fun _ _ hst => ⟨hst, hst⟩

theorem emits_enter (level : Nat) :
    r.Emits Eq (modify fun s : IndentScope => s.enter level) (modify fun s : IndentScope => s.enter level) :=
  fun _ _ hst => ⟨rfl, hst.enter level⟩

theorem emits_push (hkey : r.Word before after) :
    r.Emits Eq (modify fun s : IndentScope => s.push before) (modify fun s : IndentScope => s.push after) :=
  fun _ _ hst => ⟨rfl, hst.push hkey⟩

/-- A statement on a line of its own. -/
theorem onLine_emits {own own' inner inner' : Emit Script} (level : Nat) (s : Statement)
    (hown : r.Emits r.Scripts own own') (hinner : r.Emits r.Scripts inner inner') :
    r.Emits r.Scripts ((s.through l).onLine level own inner) ((s.through m).onLine level own' inner') := by
  have hline : r.Emits r.Scripts (do return Script.line level (← own)) (do return Script.line level (← own')) :=
    hown.bind fun _ _ h => emits_pure (h.line level)
  cases s with
  | block b =>
    cases b with
    -- A block that is no scope is written without its braces.
    | code _ _ _ isScoped =>
      cases isScoped with
      | true => exact hline
      | false => exact hinner
    | template => exact hline
  | imported | missing => exact emits_pure .nil
  | _ => exact hline

/-! ### Small scripts -/

theorem getD_scripts {given given' : Option Script} (h : Option.Rel r.Scripts given given')
    (hdefault : r.Scripts a b) : r.Scripts (given.getD a) (given'.getD b) := by
  cases h with
  | none => exact hdefault
  | some h => exact h

theorem written_scripts (kind : NameKind) (t : String) :
    r.Word (kind.written (l.name t)) (kind.written (m.name t)) := by
  cases kind with
  | plain | raw => exact r.name t
  | context => exact r.append (r.append (r.plain rfl) (r.nameLiteral t)) (r.plain rfl)

theorem binding_scripts (b : Binding) : r.Scripts (b.through l).script (b.through m).script :=
  (scripts_words (written_scripts _ _)).marked b.span

/-- A name that may be absent, after `before` and before `after`. -/
theorem option_word (name : Option String) (before after : String) (hbefore : isPlain before = true)
    (hafter : isPlain after = true) :
    r.Word (((name.map l.name).map (before ++ · ++ after)).getD "")
      (((name.map m.name).map (before ++ · ++ after)).getD "") := by
  cases name with
  | none => exact r.plain (t := "") rfl
  | some t => exact r.append (r.append (r.plain hbefore) (r.name t)) (r.plain hafter)

theorem functionHead_word (isAsync isGenerator : Bool) (name : Option String) :
    r.Word (functionHead isAsync isGenerator (name.map l.name))
      (functionHead isAsync isGenerator (name.map m.name)) := by
  have hname := option_word (r := r) name " " "" rfl rfl
  simp only [String.append_empty] at hname
  refine r.append (r.plain ?_) hname
  cases isAsync <;> cases isGenerator <;> rfl

theorem jump_word {word : String} (hword : isPlain word = true) (label : Option String) :
    r.Word (jump word (label.map l.name)) (jump word (label.map m.name)) := by
  have hname := option_word (r := r) label " " "" rfl rfl
  simp only [String.append_empty] at hname
  exact r.append (r.append (r.plain hword) hname) (r.plain rfl)

/-! ### Trees -/

section Trees

variable {o : ScriptOptions} {r : Rewording l m o.layout}

mutual

theorem expression_emits (level : Nat) : (e : Expression) →
    r.Emits r.Scripts ((e.through l).script o level) ((e.through m).script o level)
  | .number span text => emits_pure ((scripts_words (r.text text)).marked span)
  | .string span _ parts => by
    exact (parts_emits level r.quoted parts).bind fun _ _ h =>
      emits_pure ((h.around (r.plain rfl) (r.plain rfl)).marked span)
  | .boolean span value => by
    cases value <;> exact emits_pure ((scripts_plain rfl).marked span)
  | .keyword span word => by
    cases word <;> exact emits_pure ((scripts_plain rfl).marked span)
  | .array span _ elements => by
    exact (expressions_emit level elements).bind fun _ _ h =>
      emits_pure (((scripts_commas h).around (r.plain rfl) (r.plain rfl)).marked span)
  | .object span _ properties => by
    refine (properties_emit level properties).bind fun _ _ h => ?_
    cases h with
    | nil => exact emits_pure ((scripts_plain rfl).marked span)
    | cons hfirst hrest =>
      exact emits_pure (((scripts_commas (.cons hfirst hrest)).around (r.plain rfl) (r.plain rfl)).marked span)
  | .name span kind text => emits_pure ((scripts_words (written_scripts kind text)).marked span)
  | .binary span left operator right => by
    refine (expression_emits level left).bind fun _ _ hl => ?_
    refine (expression_emits level right).bind fun _ _ hr => ?_
    refine emits_pure (((hl.append (scripts_plain ?_)).append hr).marked span)
    cases operator <;> rfl
  | .member span object property isOptional => by
    refine (expression_emits level object).bind fun _ _ h => emits_pure ((h.append (scripts_words ?_)).marked span)
    exact r.append (r.append (r.plain (by cases isOptional <;> rfl)) (r.nameLiteral property)) (r.plain rfl)
  | .index span object index isOptional => by
    refine (expression_emits level object).bind fun _ _ h => ?_
    refine (expression_emits level index).bind fun _ _ hi => ?_
    refine emits_pure ((h.append (hi.around (r.plain ?_) (r.plain rfl))).marked span)
    cases isOptional <;> rfl
  | .call span callee _ arguments isOptional => by
    refine (expression_emits level callee).bind fun _ _ h => ?_
    refine (expressions_emit level arguments).bind fun _ _ ha => ?_
    refine emits_pure ((h.append ((scripts_commas ha).around (r.plain ?_) (r.plain rfl))).marked span)
    cases isOptional <;> rfl
  | .update span operator isBefore operand => by
    refine (expression_emits level operand).bind fun _ _ h => ?_
    cases isBefore with
    | true => exact emits_pure (((scripts_plain (by cases operator <;> rfl)).append h).marked span)
    | false => exact emits_pure ((h.append (scripts_plain (by cases operator <;> rfl))).marked span)
  | .unary span operator operand => by
    refine (expression_emits level operand).bind fun _ _ h => ?_
    rw [UnaryOperator.needsBlank_through, UnaryOperator.needsBlank_through]
    refine emits_pure (((scripts_plain ?_).append h).marked span)
    -- Whether a blank is needed depends on the signs, not on how the words are spelled.
    cases operator <;> cases UnaryOperator.needsBlank _ operand <;> rfl
  | .operation span operator operand => by
    refine (expression_emits level operand).bind fun _ _ h =>
      emits_pure (((scripts_plain ?_).append h).marked span)
    cases operator <;> rfl
  | .conditional span condition whenTrue whenFalse => by
    refine (expression_emits level condition).bind fun _ _ hc => ?_
    refine (expression_emits level whenTrue).bind fun _ _ ht => ?_
    refine (expression_emits level whenFalse).bind fun _ _ hf => ?_
    exact emits_pure (((((hc.append (scripts_plain rfl)).append ht).append (scripts_plain rfl)).append hf).marked span)
  | .paren span inner => by
    exact (expression_emits level inner).bind fun _ _ h =>
      emits_pure ((h.around (r.plain rfl) (r.plain rfl)).marked span)
  | .new span callee brackets arguments => by
    refine (expression_emits level callee).bind fun _ _ h => ?_
    refine (expressions_emit level arguments).bind fun _ _ ha => ?_
    refine emits_pure ((((scripts_plain rfl).append h).append ?_).marked span)
    cases brackets with
    | none => exact .nil
    | some => exact (scripts_commas ha).around (r.plain rfl) (r.plain rfl)
  | .yield span delegate value => by
    refine (expressionOption_emits level value).bind fun _ _ h => ?_
    cases h with
    | none => exact emits_pure ((scripts_plain (by cases delegate <;> rfl)).marked span)
    | some h => exact emits_pure (((scripts_plain (by cases delegate <;> rfl)).append h).marked span)
  | .function span name isAsync isGenerator _ parameters body => by
    refine (parameters_emit level parameters).bind fun _ _ hp => ?_
    refine (block_emits level body).bind fun _ _ hb => ?_
    have hopening := r.append (functionHead_word isAsync isGenerator name) (r.plain (t := "(") rfl)
    exact emits_pure ((((scripts_commas hp).around hopening (r.plain rfl)).append hb).marked span)
  | .arrowBlock span isAsync _ parameters body => by
    refine (parameters_emit level parameters).bind fun _ _ hp => ?_
    refine (block_emits level body).bind fun _ _ hb => ?_
    refine emits_pure ((((scripts_commas hp).around (r.plain ?_) (r.plain rfl)).append hb).marked span)
    cases isAsync <;> rfl
  | .arrowValue span isAsync _ parameters body => by
    refine (parameters_emit level parameters).bind fun _ _ hp => ?_
    refine (expression_emits level body).bind fun _ _ hb => ?_
    refine emits_pure ((((scripts_commas hp).around (r.plain ?_) (r.plain rfl)).append ?_).marked span)
    · cases isAsync <;> rfl
    · -- An object gets brackets around it, so that it is not taken for a block.
      rw [Expression.isObject_through, Expression.isObject_through]
      cases body.isObject with
      | true => exact hb.around (r.plain rfl) (r.plain rfl)
      | false => exact hb
  | .spread span inner => by
    exact (expression_emits level inner).bind fun _ _ h => emits_pure (((scripts_plain rfl).append h).marked span)
  | .missing span => emits_pure ((scripts_plain rfl).marked span)

theorem expressionOption_emits (level : Nat) : (e : Option Expression) →
    r.Emits (Option.Rel r.Scripts) (Expression.scriptOption o level (Expression.throughOption l e))
      (Expression.scriptOption o level (Expression.throughOption m e))
  | none => emits_pure .none
  | some e => (expression_emits level e).bind fun _ _ h => emits_pure (.some h)

theorem expressions_emit (level : Nat) : (es : List Expression) →
    r.Emits (List.Forall₂ r.Scripts) (Expression.scripts o level (Expression.allThrough l es))
      (Expression.scripts o level (Expression.allThrough m es))
  | [] => emits_pure .nil
  | e :: es => (expression_emits level e).bind fun _ _ h => (expressions_emit level es).bind fun _ _ hs =>
    emits_pure (.cons h hs)

theorem parts_emits (level : Nat) {escape : String → String}
    (hescape : ∀ t, r.Word (escape (l.text t)) (escape (m.text t))) : (ps : List TextPart) →
    r.Emits r.Scripts (TextPart.scripts o level escape (TextPart.allThrough l ps))
      (TextPart.scripts o level escape (TextPart.allThrough m ps))
  | [] => emits_pure .nil
  | p :: ps => (part_emits level hescape p).bind fun _ _ h => (parts_emits level hescape ps).bind fun _ _ hs =>
    emits_pure (h.append hs)

theorem part_emits (level : Nat) {escape : String → String}
    (hescape : ∀ t, r.Word (escape (l.text t)) (escape (m.text t))) : (p : TextPart) →
    r.Emits r.Scripts ((p.through l).script o level escape) ((p.through m).script o level escape)
  | .chunk span text => emits_pure ((scripts_words (hescape text)).marked span)
  | .splice span value => by
    exact (expression_emits level value).bind fun _ _ h =>
      emits_pure ((h.around (r.plain rfl) (r.plain rfl)).marked span)

theorem property_emits (level : Nat) : (p : Property) →
    r.Emits r.Scripts ((p.through l).script o level) ((p.through m).script o level)
  | .named span name value | .numbered span name value => by
    exact (expression_emits level value).bind fun _ _ h =>
      emits_pure (((scripts_words (r.append (r.name name) (r.plain rfl))).append h).marked span)
  | .quoted span _ _ parts value => by
    refine (parts_emits level r.quoted parts).bind fun _ _ hk => ?_
    refine (expression_emits level value).bind fun _ _ h => ?_
    exact emits_pure (((hk.around (r.plain rfl) (r.plain rfl)).append h).marked span)
  | .computed span key value => by
    refine (expression_emits level key).bind fun _ _ hk => ?_
    refine (expression_emits level value).bind fun _ _ h => ?_
    exact emits_pure (((hk.around (r.plain rfl) (r.plain rfl)).append h).marked span)
  | .spread span value => by
    exact (expression_emits level value).bind fun _ _ h => emits_pure (h.marked span)

theorem properties_emit (level : Nat) : (ps : List Property) →
    r.Emits (List.Forall₂ r.Scripts) (Property.scripts o level (Property.allThrough l ps))
      (Property.scripts o level (Property.allThrough m ps))
  | [] => emits_pure .nil
  | p :: ps => (property_emits level p).bind fun _ _ h => (properties_emit level ps).bind fun _ _ hs =>
    emits_pure (.cons h hs)

theorem parameter_emits (level : Nat) : (p : Parameter) →
    r.Emits r.Scripts ((p.through l).script o level) ((p.through m).script o level)
  | .named span name isRest value => by
    have hname : r.Word ((if isRest then "..." else "") ++ l.name name)
        ((if isRest then "..." else "") ++ m.name name) :=
      r.append (r.plain (by cases isRest <;> rfl)) (r.name name)
    refine (expressionOption_emits level value).bind fun _ _ h => ?_
    cases h with
    | none => exact emits_pure ((scripts_words hname).marked span)
    | some h => exact emits_pure ((((scripts_words hname).append (scripts_plain rfl)).append h).marked span)

theorem parameters_emit (level : Nat) : (ps : List Parameter) →
    r.Emits (List.Forall₂ r.Scripts) (Parameter.scripts o level (Parameter.allThrough l ps))
      (Parameter.scripts o level (Parameter.allThrough m ps))
  | [] => emits_pure .nil
  | p :: ps => (parameter_emits level p).bind fun _ _ h => (parameters_emit level ps).bind fun _ _ hs =>
    emits_pure (.cons h hs)

theorem block_emits (level : Nat) : (b : Block) →
    r.Emits r.Scripts ((b.through l).script o level) ((b.through m).script o level)
  | .code _ _ statements _ => by
    refine (statements_emit (level + 1) statements).bind fun _ _ h => ?_
    cases statements with
    | nil => exact emits_pure (scripts_plain rfl)
    | cons => exact emits_pure (h.braced level)
  | .template _ _ lines => by
    exact (lines_emit (level + 1) lines).bind fun _ _ h => emits_pure (h.braced level)

theorem statement_emits (level : Nat) : (s : Statement) →
    r.Emits r.Scripts ((s.through l).script o level) ((s.through m).script o level)
  | .block body => by
    refine (block_emits level body).bind fun _ _ h => ?_
    rw [Block.span_through, Block.span_through]
    exact emits_pure (h.marked body.span)
  | .expression value => by
    exact (expression_emits level value).bind fun _ _ h => emits_pure (h.append (scripts_plain rfl))
  | .variable span kind declarators => by
    refine (declarators_emit level (areRaw_eq l m declarators) declarators).bind fun _ _ h =>
      emits_pure (((scripts_commas h).around ?_ (r.plain rfl)).marked span)
    rw [areRaw_eq l m]
    exact r.plain (by cases Declarator.areRaw _ <;> cases kind <;> rfl)
  | .function span name isAsync isGenerator _ parameters body => by
    have hhead := functionHead_word (r := r) isAsync isGenerator (some name.name)
    refine (parameters_emit level parameters).bind fun _ _ hp => ?_
    refine (block_emits level body).bind fun _ _ hb => ?_
    -- The function itself, which is assigned to a property if its name is one of the context.
    have hfunction := ((scripts_commas hp).around (r.append hhead (r.plain (t := "(") rfl))
      (r.plain (t := ") ") rfl)).append hb
    have hname := binding_scripts (r := r) name
    change r.Emits _ (if name.isRaw = true then _ else _) (if name.isRaw = true then _ else _)
    cases name.isRaw with
    | true => exact emits_pure (hfunction.marked span)
    | false =>
      exact emits_pure
        ((((hname.append (scripts_plain rfl)).append hfunction).append (scripts_plain rfl)).marked span)
  | .ifElse span condition whenTrue whenFalse => by
    refine (expression_emits level condition).bind fun _ _ hc => ?_
    refine (statement_emits level whenTrue).bind fun _ _ ht => ?_
    refine (statementOption_emits level whenFalse).bind fun _ _ hf => ?_
    have hfirst := (hc.around (r.plain (t := "if (") rfl) (r.plain (t := ") ") rfl)).append ht
    cases hf with
    | none => exact emits_pure (hfirst.marked span)
    | some hf =>
      refine emits_pure ((((hfirst.append ?_).append (scripts_plain rfl)).append hf).marked span)
      -- Only after a block does `else` stand on the same line.
      rw [Statement.isBlock_through, Statement.isBlock_through]
      cases whenTrue.isBlock with
      | true => exact scripts_plain rfl
      | false => exact .cons .lineBreak (.cons (.margin level) .nil)
  | .switch span value body => by
    refine (expression_emits level value).bind fun _ _ hv => ?_
    refine (block_emits level body).bind fun _ _ hb => ?_
    exact emits_pure (((hv.around (r.plain rfl) (r.plain rfl)).append hb).marked span)
  | .label span test => by
    refine (expressionOption_emits level test).bind fun _ _ h => ?_
    cases h with
    | none => exact emits_pure ((scripts_plain rfl).marked span)
    | some h => exact emits_pure ((h.around (r.plain rfl) (r.plain rfl)).marked span)
  | .whileLoop span condition body => by
    refine (expression_emits level condition).bind fun _ _ hc => ?_
    refine (statement_emits level body).bind fun _ _ hb => ?_
    exact emits_pure (((hc.around (r.plain rfl) (r.plain rfl)).append hb).marked span)
  | .doLoop span body condition => by
    refine (statement_emits level body).bind fun _ _ hb => ?_
    refine (expression_emits level condition).bind fun _ _ hc => ?_
    exact emits_pure ((((scripts_plain rfl).append hb).append (hc.around (r.plain rfl) (r.plain rfl))).marked span)
  | .forLoop span head condition update body => by
    -- The optional parts come with a blank before them.
    have hspaced {a b : Option Script} (h : Option.Rel r.Scripts a b) :
        r.Scripts ((a.map (words " " ++ ·)).getD []) ((b.map (words " " ++ ·)).getD []) := by
      cases h with
      | none => exact .nil
      | some h => exact (scripts_plain rfl).append h
    refine (head_emits level head).bind fun _ _ hh => ?_
    refine (expressionOption_emits level condition).bind fun _ _ hc => ?_
    refine (expressionOption_emits level update).bind fun _ _ hu => ?_
    refine (statement_emits level body).bind fun _ _ hb => ?_
    exact emits_pure ((((((((scripts_plain rfl).append hh).append (scripts_plain rfl)).append (hspaced hc)).append
      (scripts_plain rfl)).append (hspaced hu)).append (scripts_plain rfl)).append hb |>.marked span)
  | .forIn span head value body => by
    refine (headBinding_emits level head).bind fun _ _ hh => ?_
    refine (expression_emits level value).bind fun _ _ hv => ?_
    refine (statement_emits level body).bind fun _ _ hb => ?_
    exact emits_pure (((((hh.around (r.plain rfl) (r.plain rfl)).append hv).append (scripts_plain rfl)).append
      hb).marked span)
  | .forOf span isAwait head value body => by
    refine (headBinding_emits level head).bind fun _ _ hh => ?_
    refine (expression_emits level value).bind fun _ _ hv => ?_
    refine (statement_emits level body).bind fun _ _ hb => ?_
    refine emits_pure (((((hh.around (r.plain ?_) (r.plain rfl)).append hv).append (scripts_plain rfl)).append
      hb).marked span)
    cases isAwait <;> rfl
  | .attempt span body clauses => by
    refine (block_emits level body).bind fun _ _ hb => ?_
    refine (clauses_emit level clauses).bind fun _ _ hc => ?_
    exact emits_pure ((((scripts_plain rfl).append hb).append hc).marked span)
  | .throw span value => by
    exact (expression_emits level value).bind fun _ _ h =>
      emits_pure ((h.around (r.plain rfl) (r.plain rfl)).marked span)
  | .imported value => emits_pure ((scripts_plain rfl).marked value.span)
  | .leave span label | .next span label => emits_pure ((scripts_words (jump_word rfl label)).marked span)
  | .result span value => by
    refine (expressionOption_emits level value).bind fun _ _ h => ?_
    cases h with
    | none => exact emits_pure ((scripts_plain rfl).marked span)
    | some h => exact emits_pure ((h.around (r.plain rfl) (r.plain rfl)).marked span)
  | .debugger span | .empty span | .missing span => emits_pure ((scripts_plain rfl).marked span)

theorem statementOption_emits (level : Nat) : (s : Option Statement) →
    r.Emits (Option.Rel r.Scripts) (Statement.scriptOption o level (Statement.throughOption l s))
      (Statement.scriptOption o level (Statement.throughOption m s))
  | none => emits_pure .none
  | some s => (statement_emits level s).bind fun _ _ h => emits_pure (.some h)

theorem statements_emit (level : Nat) : (ss : List Statement) →
    r.Emits r.Scripts (Statement.lines o level (Statement.allThrough l ss))
      (Statement.lines o level (Statement.allThrough m ss))
  | [] => emits_pure .nil
  | s :: ss => (onLine_emits level s (statement_emits level s) (inner_emits level s)).bind fun _ _ h =>
    (statements_emit level ss).bind fun _ _ hs => emits_pure (h.append hs)

theorem inner_emits (level : Nat) : (s : Statement) →
    r.Emits r.Scripts ((s.through l).inner o level) ((s.through m).inner o level)
  | .block (.code _ _ statements _) => by
    exact statements_emit level statements
  | .block (.template ..) | .expression _ | .variable .. | .function .. | .ifElse ..
  | .switch .. | .label .. | .whileLoop .. | .doLoop .. | .forLoop .. | .forIn ..
  | .forOf .. | .attempt .. | .throw .. | .imported _ | .leave .. | .next ..
  | .result .. | .debugger _ | .empty _ | .missing _ => emits_pure .nil

theorem declarator_emits (level : Nat) (isRaw : Bool) : (d : Declarator) →
    r.Emits r.Scripts ((d.through l).script o level isRaw) ((d.through m).script o level isRaw)
  | .bind _ name value => by
    have hname := binding_scripts (r := r) name
    refine (expressionOption_emits level value).bind fun _ _ h => ?_
    cases h with
    | some h => exact emits_pure ((hname.append (scripts_plain rfl)).append h)
    | none =>
      cases isRaw with
      | true => exact emits_pure hname
      | false => exact emits_pure (hname.append (scripts_plain rfl))

theorem declarators_emit (level : Nat) {isRaw isRaw' : Bool} (hraw : isRaw = isRaw') : (ds : List Declarator) →
    r.Emits (List.Forall₂ r.Scripts) (Declarator.scripts o level isRaw (Declarator.allThrough l ds))
      (Declarator.scripts o level isRaw' (Declarator.allThrough m ds))
  | [] => emits_pure .nil
  | d :: ds => by
    subst hraw
    refine (declarator_emits level isRaw d).bind fun _ _ h => ?_
    refine (declarators_emit level rfl ds).bind fun _ _ hs => ?_
    exact emits_pure (.cons h hs)

theorem head_emits (level : Nat) : (h : LoopHead) →
    r.Emits r.Scripts ((h.through l).script o level) ((h.through m).script o level)
  | .nothing => emits_pure .nil
  | .variable _ kind declarators => by
    refine (declarators_emit level (areRaw_eq l m declarators) declarators).bind fun _ _ h =>
      emits_pure ((scripts_words ?_).append (scripts_commas h))
    rw [areRaw_eq l m]
    exact r.plain (by cases Declarator.areRaw _ <;> cases kind <;> rfl)
  | .expression value => by
    exact expression_emits level value

theorem headBinding_emits (level : Nat) : (h : LoopHead) →
    r.Emits r.Scripts ((h.through l).bindingScript o level) ((h.through m).bindingScript o level)
  | .nothing => emits_pure .nil
  | .variable _ kind declarators => by
    have hraw : r.Emits r.Scripts
        (do return words (kind.spelling ++ " ") ++
          commas (← Declarator.scripts o level true (Declarator.allThrough l declarators)))
        (do return words (kind.spelling ++ " ") ++
          commas (← Declarator.scripts o level true (Declarator.allThrough m declarators))) :=
      (declarators_emit level rfl declarators).bind fun _ _ h =>
        emits_pure ((scripts_plain (by cases kind <;> rfl)).append (scripts_commas h))
    have hfirst : r.Scripts (((Declarator.allThrough l declarators).head?.map fun d => d.name.script).getD [])
        (((Declarator.allThrough m declarators).head?.map fun d => d.name.script).getD []) := by
      rcases declarators with _ | ⟨⟨_, name, _⟩, _⟩
      · exact .nil
      · exact binding_scripts name
    -- Whether the names are raw does not depend on how they are spelled.
    change r.Emits r.Scripts (if Declarator.areRaw (Declarator.allThrough l declarators) = true then _ else _)
      (if Declarator.areRaw (Declarator.allThrough m declarators) = true then _ else _)
    rw [areRaw_eq l m]
    split
    · exact hraw
    · exact emits_pure hfirst
  | .expression value => by
    exact expression_emits level value

theorem clause_emits (level : Nat) : (c : Clause) →
    r.Emits r.Scripts ((c.through l).script o level) ((c.through m).script o level)
  | .handler _ parameter body => by
    exact (block_emits level body).bind fun _ _ h => emits_pure
      ((scripts_words (r.append (r.plain rfl) (option_word parameter "(" ") " rfl rfl))).append h)
  | .finalizer _ body => by
    exact (block_emits level body).bind fun _ _ h => emits_pure ((scripts_plain rfl).append h)

theorem clauses_emit (level : Nat) : (cs : List Clause) →
    r.Emits r.Scripts (Clause.scripts o level (Clause.allThrough l cs))
      (Clause.scripts o level (Clause.allThrough m cs))
  | [] => emits_pure .nil
  | c :: cs => (clause_emits level c).bind fun _ _ h => (clauses_emit level cs).bind fun _ _ hs =>
    emits_pure (h.append hs)

theorem key_emits (level : Nat) : (k : ObjectKey) →
    r.Emits r.Scripts ((k.through l).script o level) ((k.through m).script o level)
  | .word _ text => by
    exact emits_pure (scripts_words (r.nameLiteral text))
  | .quoted _ parts => by
    exact (parts_emits level r.quoted parts).bind fun _ _ h =>
      emits_pure (h.around (r.plain rfl) (r.plain rfl))

theorem tag_emits (level : Nat) : (t : Tag) →
    r.Emits r.Scripts ((t.through l).script o level) ((t.through m).script o level)
  | .tag span name value => by
    exact (expressionOption_emits level value).bind fun _ _ h =>
      emits_pure ((scripts_plain rfl).append (Scripts.marked (Scripts.append
        (scripts_words (r.append (r.nameLiteral name) (r.plain rfl))) (getD_scripts h (scripts_plain rfl))) span))

theorem tags_emit (level : Nat) : (ts : List Tag) →
    r.Emits r.Scripts (Tag.scripts o level (Tag.allThrough l ts)) (Tag.scripts o level (Tag.allThrough m ts))
  | [] => emits_pure .nil
  | t :: ts => (tag_emits level t).bind fun _ _ h => (tags_emit level ts).bind fun _ _ hs =>
    emits_pure (h.append hs)

theorem prototype_emits (level : Nat) {value value' : Script} (hvalue : r.Scripts value value') :
    (p : Prototype) →
    r.Emits r.Scripts ((p.through l).script o level value) ((p.through m).script o level value')
  | .nothing => emits_pure hvalue
  | .inherits _ proto => by
    exact (expression_emits level proto).bind fun _ _ h =>
      emits_pure (((hvalue.around (r.plain rfl) (r.plain rfl)).append h).append (scripts_plain rfl))

theorem line_emits (level : Nat) : (x : Line) →
    r.Emits r.Scripts ((x.through l).script o level) ((x.through m).script o level)
  | .object _ indent body key proto tags value => by
    refine (emits_enter indent.level).bind fun _ _ _ => ?_
    refine emits_get.bind fun _ _ hparent => ?_
    refine (key_emits level key).bind fun _ _ hkey => ?_
    refine emits_get.bind fun _ _ hscope => ?_
    refine (expressionOption_emits level value).bind fun _ _ hgiven => ?_
    -- The path of the object is that of its parent with the key attached.
    have hpath := hscope.childPath hkey.text
    have hnew := scripts_words (r.append hpath (r.plain (t := " || \x7b __text: [] \x7d") rfl))
    refine (prototype_emits level (getD_scripts hgiven hnew) proto).bind fun _ _ hwhole => ?_
    refine (tags_emit level tags).bind fun _ _ hentries => ?_
    refine (emits_push hkey.text).bind fun _ _ _ => ?_
    have hassignment := (Scripts.marked (((hkey.around (r.append hparent.path (r.plain (t := "[") rfl))
      (r.plain (t := "] = ") rfl)).append hwhole).append (scripts_plain (t := ";") rfl)) body).line level
    -- Tags get a line of their own.
    rcases tags with _ | ⟨⟨span, _, _⟩, _⟩
    · exact emits_pure hassignment
    · have hall := r.append hpath (r.plain (t := "['__tags']") rfl)
      exact emits_pure (hassignment.append (Scripts.line (Scripts.marked (hentries.around
        (r.append (r.append hall (r.plain rfl)) hall) (r.plain rfl)) span) level))
  | .delete _ indent body key => by
    refine (emits_enter indent.level).bind fun _ _ _ => ?_
    refine emits_get.bind fun _ _ hparent => ?_
    refine (key_emits level key).bind fun _ _ hkey => ?_
    exact emits_pure (Scripts.line (Scripts.marked (hkey.around (r.append (r.append (r.plain rfl) hparent.path)
      (r.plain rfl)) (r.plain rfl)) body) level)
  | .code _ indent statement => by
    exact (emits_enter indent.level).bind fun _ _ _ =>
      onLine_emits level statement (statement_emits level statement) (inner_emits level statement)
  | .text span indent parts => by
    refine (emits_enter indent.level).bind fun _ _ _ => ?_
    refine emits_get.bind fun _ _ hscope => ?_
    refine (parts_emits level r.textLine parts).bind fun _ _ h => ?_
    have hall := r.append hscope.path (r.plain (t := "['__text']") rfl)
    -- The blanks before the text have no end of line in them.
    have hblanks (n : Nat) : isPlain ("".pushn ' ' n) = true := by
      rw [String.pushn_eq_repeat_push]
      induction n with
      | zero => rfl
      | succ n ih => rw [Nat.repeat, isPlain, String.toList_push, List.all_append, ← isPlain, ih]; rfl
    rw [hscope.ownedWidth_eq]
    exact emits_pure (Scripts.line (Scripts.marked (h.around (r.append (r.append (r.append (r.append hall
      (r.plain rfl)) hall) (r.plain rfl)) (r.plain (hblanks _))) (r.plain rfl)) span) level)
  | .comment span _ text => emits_pure
    ((Scripts.marked (scripts_words (r.append (r.plain rfl) (r.text text))) span).line level)

theorem lines_emit (level : Nat) : (xs : List Line) →
    r.Emits r.Scripts (Line.scripts o level (Line.allThrough l xs))
      (Line.scripts o level (Line.allThrough m xs))
  | [] => emits_pure .nil
  | x :: xs => (line_emits level x).bind fun _ _ h => (lines_emit level xs).bind fun _ _ hs =>
    emits_pure (h.append hs)

end

end Trees

/-! ### Whole stories -/

theorem required_word (i : Import) : r.Word (i.through l).required (i.through m).required := by
  refine r.append (r.append (r.append (r.plain rfl) (r.text i.path)) (r.plain rfl)) ?_
  obtain ⟨_, _, name, newName, _⟩ := i
  cases newName with
  | none => exact r.plain (t := "") rfl
  | some => exact r.append (r.append (r.plain (t := "[") rfl) (r.nameLiteral name)) (r.plain (t := "]") rfl)

theorem import_scripts (i : Import) : r.Scripts (i.through l).script (i.through m).script := by
  refine Scripts.line (Scripts.marked (scripts_words ?_) i.span) 0
  rw [Import.binding_through, Import.binding_through]
  change r.Word (if i.isIn = true then _ else _) (if i.isIn = true then _ else _)
  cases i.isIn with
  | true =>
    exact r.append (r.append (r.append (r.append (r.plain rfl) (r.nameLiteral _)) (r.plain rfl))
      (required_word i)) (r.plain rfl)
  | false =>
    exact r.append (r.append (r.append (r.append (r.plain rfl) (r.name _)) (r.plain rfl))
      (required_word i)) (r.plain rfl)

/-- The same imports are made, since the same names are bound twice. -/
theorem imports_scripts (bound : List String) (is : List Import) :
    r.Scripts ((Import.effective (bound.map l.name) (is.map (Import.through l))).flatMap Import.script)
      ((Import.effective (bound.map m.name) (is.map (Import.through m))).flatMap Import.script) := by
  induction is generalizing bound with
  | nil => exact .nil
  | cons i is ih =>
    -- Different names are seen as different ones, so a name is taken in both ways or in neither.
    have hmem : l.name i.binding ∈ bound.map l.name ↔ m.name i.binding ∈ bound.map m.name := by
      simp only [List.mem_map, r.sameName]
    have hfirst := (import_scripts (r := r) i).append (ih bound)
    have hbound := (import_scripts (r := r) i).append (ih (i.binding :: bound))
    have hin (l : Lens) : (i.through l).isIn = i.isIn := rfl
    rw [List.map_cons, List.map_cons, Import.effective, Import.effective, Import.binding_through,
      Import.binding_through, hin, hin]
    cases i.isIn with
    | true => exact hfirst
    | false =>
      by_cases hold : l.name i.binding ∈ bound.map l.name
      · simpa [hold, hmem.mp hold] using ih bound
      · simpa [hold, mt hmem.mpr hold] using hbound

theorem isPlain_quoteName (t : String) : isPlain (quoteName t) = true := by
  -- Ends of lines are escaped, and every other character is left.
  have hchar (c : Char) : (quoteChar c).all (fun c => c != '\n' && c != '\r') = true := by
    unfold quoteChar
    split_ifs with h1 h2 h3 h4
    · rfl
    · rfl
    · rfl
    · rfl
    · simp [h3, h4]
  have hinside : (t.toList.flatMap quoteChar).all (fun c => c != '\n' && c != '\r') = true := by
    rw [List.all_flatMap]
    exact List.all_eq_true.mpr fun c _ => hchar c
  simp [isPlain, quoteName, hinside]

/-- **The script of a story that is seen in two ways.** -/
theorem module_scripts {o : ScriptOptions} (r : Rewording l m o.layout) {story first second : Module}
    (hfirst : story.through l = first) (hsecond : story.through m = second) :
    r.Scripts (first.script o) (second.script o) := by
  subst hfirst hsecond
  have hpreamble : r.Scripts o.preamble o.preamble := by
    refine Scripts.append (Scripts.append (Scripts.line (scripts_words ?_) 0) ?_) ?_
    · exact r.append (r.append (r.plain rfl) (r.plain (isPlain_quoteName _))) (r.plain rfl)
    · exact (scripts_plain rfl).line 0
    · exact (scripts_plain rfl).line 0
  have hlines := (lines_emit (r := r) 0 story.lines Scopes.initial).1
  exact ((hpreamble.append (imports_scripts [] story.imports)).append hlines).append
    ((scripts_plain rfl).line 0)

end Rewording

end Story
