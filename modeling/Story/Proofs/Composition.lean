import Mathlib.Data.List.Infix
import Story.Proofs.Reads
import Story.Script.Generate

/-!
# How a script is put together

The functions that write a script are gone through here, one case for each construct. What is written for a node
is put together from what is written for the nodes right below it, one after the other, and from words and marks
of its own. Whatever is said about all that is written for a story follows from this by induction on the tree.

* `Node.written` — the nodes that are written right below a node, in the order of writing;
* `Script.Weaves` — a script is put together from others: it holds them, and its marks are theirs or at places
  of its own;
* `Node.WrittenFrom` — what is written for a node in some scope, and the scope after that;
* `Node.Sequence` — several nodes are written one after the other;
* `Node.WrittenFrom.composed` — the nodes in `Node.written` are written one after the other, and their scripts are
  woven into that of the node.

What is not written is left out of `Node.written`, except for arguments without brackets, which no story has
(`Node.Bracketed`). They are gone through, but their scripts are dropped.
-/

namespace Story

/-! ### The places of a node -/

/-- Where a stretch of text starts that is a component. -/
def Component.place? : Component → Option Position
  | .mark span | .inner span _ => some span.start
  | .node _ | .list .. => none

namespace Node

/-- The places that a node stands for. -/
def places (n : Node) : List Position :=
  n.span?.toList.map Span.start ++ n.components.filterMap Component.place?

variable {P : Position → Prop} {n c : Node} {span : Span}

/-- All places of the nodes in `n` are as `P` says. -/
def PlacesIn (P : Position → Prop) (n : Node) : Prop := ∀ m ∈ n.nodes, ∀ p ∈ m.places, P p

theorem placesIn_iff :
    n.PlacesIn P ↔ (∀ p ∈ n.places, P p) ∧ ∀ c ∈ n.children, c.PlacesIn P := by
  simp only [PlacesIn]
  rw [nodes_eq, List.forall_mem_cons, List.forall_mem_flatMap]

namespace PlacesIn

theorem child (h : n.PlacesIn P) (hc : c ∈ n.children) : c.PlacesIn P := (placesIn_iff.mp h).2 c hc

theorem start (h : n.PlacesIn P) (hspan : n.span? = some span) : P span.start := by
  refine h n self_mem_nodes _ (List.mem_append_left _ ?_)
  rw [hspan]
  exact List.mem_singleton_self _

theorem component {x : Component} {p : Position} (h : n.PlacesIn P) (hx : x ∈ n.components)
    (hp : x.place? = some p) : P p :=
  h n self_mem_nodes p (List.mem_append_right _ (List.mem_filterMap.mpr ⟨x, hx, hp⟩))

end PlacesIn

end Node

/-! ### Scripts in a script -/

namespace Script

/-- The other script is a stretch of this one. -/
def Holds (script own : Script) : Prop := own <:+: script

/-- All marks of a script are at places as `P` says. -/
def MarksIn (P : Position → Prop) (script : Script) : Prop := ∀ p, Piece.mark p ∈ script → P p

variable {s t own : Script}

namespace Holds

theorem refl (s : Script) : s.Holds s := List.infix_rfl

theorem trans (h : s.Holds t) (h' : t.Holds own) : s.Holds own := List.IsInfix.trans h' h

theorem append_left (h : s.Holds own) (t : Script) : (s ++ t).Holds own :=
  List.IsInfix.trans h (List.prefix_append s t).isInfix

theorem append_right (h : t.Holds own) (s : Script) : (s ++ t).Holds own :=
  List.IsInfix.trans h (List.suffix_append s t).isInfix

end Holds

/-- **A script that is put together from `parts`.** It holds each of them, if `B` is the case. Its marks are those of
the parts, and others at places as `P` says. -/
structure Weaves (B : Prop) (P : Position → Prop) (parts : List Script) (own : Script) : Prop where
  holds : B → ∀ x ∈ parts, own.Holds x
  marks : ∀ p, Piece.mark p ∈ own → P p ∨ ∃ x ∈ parts, Piece.mark p ∈ x

namespace Weaves

variable {B : Prop} {P : Position → Prop} {xs ys : List Script}

/-- Pieces of which none is a mark. -/
theorem plain (h : ∀ p, Piece.mark p ∉ own) : Weaves B P [] own where
  holds _ := nofun
  marks p hp := absurd hp (h p)

theorem nothing : Weaves B P [] [] := plain fun _ => List.not_mem_nil

theorem words (text : String) : Weaves B P [] (words text) := plain (by simp [Script.words])

theorem part (x : Script) : Weaves B P [x] x where
  holds _ := List.forall_mem_singleton.mpr (.refl x)
  marks _ hp := .inr ⟨x, List.mem_singleton_self x, hp⟩

theorem append (h : Weaves B P xs s) (h' : Weaves B P ys t) : Weaves B P (xs ++ ys) (s ++ t) where
  holds hB := List.forall_mem_append.mpr
    ⟨fun x hx => (h.holds hB x hx).append_left t, fun y hy => (h'.holds hB y hy).append_right s⟩
  marks p hp := by
    obtain hp | hp := List.mem_append.mp hp
    · exact (h.marks p hp).imp_right fun ⟨x, hx, hmark⟩ => ⟨x, List.mem_append_left _ hx, hmark⟩
    · exact (h'.marks p hp).imp_right fun ⟨y, hy, hmark⟩ => ⟨y, List.mem_append_right _ hy, hmark⟩

/-- Parts that are not written, of which there are none. -/
theorem dropping (h : Weaves B P xs own) (hnone : B → ys = []) : Weaves B P (xs ++ ys) own where
  holds hB := by
    rw [hnone hB, List.append_nil]
    exact h.holds hB
  marks p hp := (h.marks p hp).imp_right fun ⟨x, hx, hmark⟩ => ⟨x, List.mem_append_left _ hx, hmark⟩

/-- Parts that are in one of the parts. -/
theorem within (xs : List Script) {x : Script} (h : Weaves B P (xs ++ x :: ys) own) {vs : List Script}
    (hvs : B → ∀ v ∈ vs, x.Holds v) : Weaves B P (xs ++ (vs ++ x :: ys)) own where
  holds hB := by
    obtain ⟨hxs, hys⟩ := List.forall_mem_append.mp (h.holds hB)
    have hx : own.Holds x := hys x List.mem_cons_self
    exact List.forall_mem_append.mpr ⟨hxs, List.forall_mem_append.mpr ⟨fun v hv => hx.trans (hvs hB v hv), hys⟩⟩
  marks p hp := (h.marks p hp).imp_right fun ⟨y, hy, hmark⟩ => by
    obtain hy | hy := List.mem_append.mp hy
    · exact ⟨y, List.mem_append_left _ hy, hmark⟩
    · exact ⟨y, List.mem_append_right _ (List.mem_append_right _ hy), hmark⟩

theorem marked {span : Span} (hstart : P span.start) (h : Weaves B P xs own) : Weaves B P xs (marked span own) where
  holds hB x hx := (h.holds hB x hx).append_right [.mark span.start]
  marks p hp := by
    obtain hp | hp := List.mem_cons.mp hp
    · cases hp
      exact .inl hstart
    · exact h.marks p hp

theorem followed (h : Weaves B P xs own) {text : String} : Weaves B P xs (own ++ Script.words text) := by
  have hall := h.append (words (B := B) (P := P) text)
  rwa [List.append_nil] at hall

theorem around (h : Weaves B P xs own) {before after : String} : Weaves B P xs (around before own after) :=
  ((words before).append h).followed

theorem line (h : Weaves B P xs own) {level : Nat} : Weaves B P xs (line level own) := by
  have hmargin : Weaves B P [] [.margin level] := plain (by simp)
  have hbreak : Weaves B P [] [.lineBreak] := plain (by simp)
  have hall := hmargin.append (h.append hbreak)
  rwa [List.nil_append, List.append_nil] at hall

theorem braced (h : Weaves B P xs own) {level : Nat} : Weaves B P xs (braced level own) := by
  have hopen : Weaves B P [] (Script.words "\x7b" ++ [.lineBreak]) := plain (by simp [Script.words])
  have hmargin : Weaves B P [] [.margin level] := plain (by simp)
  have hinner := (hopen.append h).append hmargin
  rw [List.nil_append, List.append_nil] at hinner
  exact hinner.followed

theorem commas (xs : List Script) : Weaves B P xs (commas xs) := by
  unfold Script.commas
  induction xs with
  | nil => exact nothing
  | cons x rest ih =>
    cases rest with
    | nil =>
      rw [List.intercalate_singleton]
      exact part x
    | cons y rest =>
      rw [List.intercalate_cons_cons]
      exact ((part x).append (words ", ")).append ih

theorem flatten (xs : List Script) : Weaves B P xs xs.flatten := by
  induction xs with
  | nil => exact nothing
  | cons x xs ih => exact (part x).append ih

/-- A script that may be absent, with a blank before it. -/
theorem spaced (script : Option Script) :
    Weaves B P script.toList ((script.map (Script.words " " ++ ·)).getD []) := by
  cases script with
  | none => exact nothing
  | some x => exact (words " ").append (part x)

end Weaves

end Script

open Script (Weaves MarksIn)

/-! ### Writing from a scope -/

namespace Emit

variable {α β : Type} {x : Emit α} {s s' : IndentScope}

/-- `x` writes `a` in the scope `s`, and leaves the scope `s'`. -/
def WritesFrom (x : Emit α) (s : IndentScope) (a : α) (s' : IndentScope) : Prop := x.run s = (a, s')

theorem WritesFrom.pure {a b : α} (h : WritesFrom (pure a) s b s') : b = a ∧ s' = s :=
  (Prod.mk.inj h).imp Eq.symm Eq.symm

theorem WritesFrom.bind {f : α → Emit β} {b : β} (h : (x >>= f).WritesFrom s b s') :
    ∃ a t, x.WritesFrom s a t ∧ (f a).WritesFrom t b s' := ⟨(x.run s).1, (x.run s).2, rfl, h⟩

theorem WritesFrom.get {t : IndentScope} (h : WritesFrom get s t s') : s = t ∧ s = s' := Prod.mk.inj h

theorem WritesFrom.modify {f : IndentScope → IndentScope} {u : PUnit} (h : WritesFrom (modify f) s u s') :
    s' = f s := (Prod.mk.inj h).2.symm

end Emit

open Emit (WritesFrom)

/-! ### The nodes that are written -/

/-- The head of a loop over values, as far as it is written: a declaration of context names has only
its first name written. -/
def LoopHead.written : LoopHead → List Node
  | .variable span kind declarators =>
    if Declarator.areRaw declarators then [.head (.variable span kind declarators)] else []
  | h => [.head h]

namespace Node

/-- The nodes right below a node, in the order in which they are written: of an object line the value
comes before what the object inherits from and before its tags. -/
def written : Node → List Node
  | .line (.object _ _ _ name proto tags value) =>
    .key name :: (value.toList.map .expression ++ .prototype proto :: tags.map .tag)
  | .statement (.forIn _ binding value body) | .statement (.forOf _ _ binding value body) =>
    binding.written ++ [.expression value, .statement body]
  | n => n.children

theorem mem_written_head {c : Node} {h : LoopHead} (hc : c ∈ h.written) : c = .head h := by
  cases h <;> grind [LoopHead.written]

theorem mem_children_of_mem_written {n c : Node} (h : c ∈ n.written) : c ∈ n.children := by
  unfold written at h
  split at h
  · simp only [children, List.mem_cons, List.mem_append] at h ⊢
    grind
  · grind [children, Statement.children, mem_written_head]
  · grind [children, Statement.children, mem_written_head]
  · exact h

/-- Arguments need brackets: there are none after a bare `new`. -/
def Bracketed : Node → Prop
  | .expression (.new _ _ none arguments) => arguments = []
  | _ => True

/-- The scope in which the nodes below a node are written: a line enters its level first, unless it is a comment. -/
def opened (s : IndentScope) : Node → IndentScope
  | .line (.comment ..) => s
  | .line l => s.enter l.indent.level
  | _ => s

/-- **What is written for a node** in the scope `s`, which leaves the scope `s'`. A statement and a block of code may
also be written as lines. What an object inherits from is written around a script with the value of the object; the
marks of that are among those `before`. -/
def WrittenFrom (o : ScriptOptions) (before : List Script) (s : IndentScope) (own : Script) (s' : IndentScope) :
    Node → Prop
  | .expression e => ∃ level, (e.script o level).WritesFrom s own s'
  | .part p => ∃ level escape, (p.script o level escape).WritesFrom s own s'
  | .property p => ∃ level, (p.script o level).WritesFrom s own s'
  | .parameter p => ∃ level, (p.script o level).WritesFrom s own s'
  | .block b => (∃ level, (b.script o level).WritesFrom s own s') ∨
      ∃ level span brackets statements isScoped, b = .code span brackets statements isScoped ∧
        (Statement.lines o level statements).WritesFrom s own s'
  | .statement t => ∃ level, (t.script o level).WritesFrom s own s' ∨
      (t.onLine level (t.script o level) (t.inner o level)).WritesFrom s own s'
  | .declarator d => ∃ level isRaw, (d.script o level isRaw).WritesFrom s own s'
  | .head h => ∃ level, (h.script o level).WritesFrom s own s'
  | .clause c => ∃ level, (c.script o level).WritesFrom s own s'
  | .key k => ∃ level, (k.script o level).WritesFrom s own s'
  | .tag t => ∃ level, (t.script o level).WritesFrom s own s'
  | .prototype p => ∃ level value, (p.script o level value).WritesFrom s own s' ∧
      ∀ q, Piece.mark q ∈ value → ∃ x ∈ before, Piece.mark q ∈ x
  | .line l => ∃ level, (l.script o level).WritesFrom s own s'

/-- **Nodes that are written one after the other.** What was written `before` is known to each of them. -/
inductive Sequence (o : ScriptOptions) :
    List Script → IndentScope → List Node → List Script → IndentScope → Prop where
  | nil {before : List Script} {s : IndentScope} : Sequence o before s [] [] s
  | cons {before : List Script} {s t s' : IndentScope} {n : Node} {ns : List Node} {own : Script}
      {scripts : List Script} (hn : n.WrittenFrom o before s own t)
      (hns : Sequence o (before ++ [own]) t ns scripts s') : Sequence o before s (n :: ns) (own :: scripts) s'

/-- **How what is written for a node is put together** from what is written for the nodes below it. An object line
declares its object after them. -/
def Composed (o : ScriptOptions) (P : Position → Prop) (s : IndentScope) (own : Script) (s' : IndentScope)
    (n : Node) : Prop :=
  ∃ scripts t, Sequence o [] (n.opened s) n.written scripts t ∧ Weaves n.Bracketed P scripts own ∧
    (s' = t ∨ ∃ key, s' = t.push key)

variable {o : ScriptOptions} {before xs ys : List Script} {s t s' : IndentScope} {ns ns' : List Node} {n : Node}

theorem Sequence.append (h : Sequence o before s ns xs t) (h' : Sequence o (before ++ xs) t ns' ys s') :
    Sequence o before s (ns ++ ns') (xs ++ ys) s' := by
  induction h with
  | nil => rwa [List.append_nil] at h'
  | cons hn _ ih =>
    refine .cons hn (ih ?_)
    rwa [List.append_assoc]

theorem Sequence.mem (h : Sequence o before s ns xs s') (hn : n ∈ ns) :
    ∃ own ∈ xs, ∃ before t t', n.WrittenFrom o before t own t' := by
  induction h with
  | nil => cases hn
  | cons hm _ ih =>
    obtain rfl | hn := List.mem_cons.mp hn
    · exact ⟨_, List.mem_cons_self, _, _, _, hm⟩
    · obtain ⟨own, hown, hwritten⟩ := ih hn
      exact ⟨own, List.mem_cons_of_mem _ hown, hwritten⟩

/-- A node that changes the scope only by what is below it. -/
theorem Composed.of {P : Position → Prop} {own : Script} (hseq : Sequence o [] (n.opened s) n.written xs s')
    (hown : Weaves n.Bracketed P xs own) : n.Composed o P s own s' := ⟨xs, s', hseq, hown, .inl rfl⟩

end Node

open Node (Sequence Composed)

/-! ### Lists of nodes -/

section Lists

variable {o : ScriptOptions} {level : Nat} {before : List Script} {s s' : IndentScope} {own : Script}
  {α : Type} {write : α → Emit Script}

/-- Nodes that are written one by one. -/
theorem Node.Sequence.of_each {writeAll : List α → Emit (List Script)} {as : List α} {scripts : List Script}
    (h : (writeAll as).WritesFrom s scripts s') (node : α → Node) (hnil : writeAll [] = pure [])
    (hcons : ∀ a as, writeAll (a :: as) = do
      let first ← write a
      let rest ← writeAll as
      return first :: rest)
    (hnode : ∀ {a before s own s'}, (write a).WritesFrom s own s' → (node a).WrittenFrom o before s own s') :
    Sequence o before s (as.map node) scripts s' := by
  induction as generalizing before s scripts with
  | nil =>
    rw [hnil] at h
    obtain ⟨rfl, rfl⟩ := h.pure
    exact .nil
  | cons a as ih =>
    rw [hcons] at h
    obtain ⟨first, t, hfirst, h⟩ := h.bind
    obtain ⟨rest, u, hrest, h⟩ := h.bind
    obtain ⟨rfl, rfl⟩ := h.pure
    exact .cons (hnode hfirst) (ih hrest)

/-- Nodes whose scripts are written one after the other. -/
theorem Node.Sequence.of_appended {writeAll : List α → Emit Script} {as : List α}
    (h : (writeAll as).WritesFrom s own s') (node : α → Node) (hnil : writeAll [] = pure [])
    (hcons : ∀ a as, writeAll (a :: as) = do
      let first ← write a
      let rest ← writeAll as
      return first ++ rest)
    (hnode : ∀ {a before s own s'}, (write a).WritesFrom s own s' → (node a).WrittenFrom o before s own s') :
    ∃ scripts, Sequence o before s (as.map node) scripts s' ∧ own = scripts.flatten := by
  induction as generalizing before s own with
  | nil =>
    rw [hnil] at h
    obtain ⟨rfl, rfl⟩ := h.pure
    exact ⟨[], .nil, rfl⟩
  | cons a as ih =>
    rw [hcons] at h
    obtain ⟨first, t, hfirst, h⟩ := h.bind
    obtain ⟨rest, u, hrest, h⟩ := h.bind
    obtain ⟨rfl, rfl⟩ := h.pure
    obtain ⟨scripts, hseq, rfl⟩ := ih hrest
    exact ⟨first :: scripts, .cons (hnode hfirst) hseq, rfl⟩

variable {scripts : List Script} {script : Option Script}

theorem Expression.scripts_sequence {es : List Expression}
    (h : (Expression.scripts o level es).WritesFrom s scripts s') :
    Sequence o before s (es.map .expression) scripts s' :=
  .of_each h .expression rfl (fun _ _ => rfl) fun hown => ⟨level, hown⟩

theorem Property.scripts_sequence {ps : List Property} (h : (Property.scripts o level ps).WritesFrom s scripts s') :
    Sequence o before s (ps.map .property) scripts s' :=
  .of_each h .property rfl (fun _ _ => rfl) fun hown => ⟨level, hown⟩

theorem Parameter.scripts_sequence {ps : List Parameter}
    (h : (Parameter.scripts o level ps).WritesFrom s scripts s') :
    Sequence o before s (ps.map .parameter) scripts s' :=
  .of_each h .parameter rfl (fun _ _ => rfl) fun hown => ⟨level, hown⟩

theorem Declarator.scripts_sequence {isRaw : Bool} {ds : List Declarator}
    (h : (Declarator.scripts o level isRaw ds).WritesFrom s scripts s') :
    Sequence o before s (ds.map .declarator) scripts s' :=
  .of_each h .declarator rfl (fun _ _ => rfl) fun hown => ⟨level, isRaw, hown⟩

theorem TextPart.scripts_flat {escape : String → String} {ps : List TextPart}
    (h : (TextPart.scripts o level escape ps).WritesFrom s own s') :
    ∃ scripts, Sequence o before s (ps.map .part) scripts s' ∧ own = scripts.flatten :=
  Sequence.of_appended h .part rfl (fun _ _ => rfl) fun hown => ⟨level, escape, hown⟩

theorem Statement.lines_flat {ss : List Statement} (h : (Statement.lines o level ss).WritesFrom s own s') :
    ∃ scripts, Sequence o before s (ss.map .statement) scripts s' ∧ own = scripts.flatten := by
  have hnode {t : Statement} {before : List Script} {s : IndentScope} {own : Script} {s' : IndentScope}
      (hown : (t.onLine level (t.script o level) (t.inner o level)).WritesFrom s own s') :
      (Node.statement t).WrittenFrom o before s own s' := ⟨level, .inr hown⟩
  exact Sequence.of_appended h .statement rfl (fun _ _ => rfl) hnode

theorem Clause.scripts_flat {cs : List Clause} (h : (Clause.scripts o level cs).WritesFrom s own s') :
    ∃ scripts, Sequence o before s (cs.map .clause) scripts s' ∧ own = scripts.flatten :=
  Sequence.of_appended h .clause rfl (fun _ _ => rfl) fun hown => ⟨level, hown⟩

theorem Tag.scripts_flat {ts : List Tag} (h : (Tag.scripts o level ts).WritesFrom s own s') :
    ∃ scripts, Sequence o before s (ts.map .tag) scripts s' ∧ own = scripts.flatten :=
  Sequence.of_appended h .tag rfl (fun _ _ => rfl) fun hown => ⟨level, hown⟩

theorem Line.scripts_flat {ls : List Line} (h : (Line.scripts o level ls).WritesFrom s own s') :
    ∃ scripts, Sequence o before s (ls.map .line) scripts s' ∧ own = scripts.flatten :=
  Sequence.of_appended h .line rfl (fun _ _ => rfl) fun hown => ⟨level, hown⟩

theorem Expression.scriptOption_sequence {value : Option Expression}
    (h : (Expression.scriptOption o level value).WritesFrom s script s') :
    Sequence o before s (value.toList.map .expression) script.toList s' := by
  cases value with
  | none =>
    obtain ⟨rfl, rfl⟩ := WritesFrom.pure h
    exact .nil
  | some e =>
    obtain ⟨own, t, hown, h⟩ := WritesFrom.bind h
    obtain ⟨rfl, rfl⟩ := h.pure
    exact .cons ⟨level, hown⟩ .nil

theorem Statement.scriptOption_sequence {body : Option Statement}
    (h : (Statement.scriptOption o level body).WritesFrom s script s') :
    Sequence o before s (body.toList.map .statement) script.toList s' := by
  cases body with
  | none =>
    obtain ⟨rfl, rfl⟩ := WritesFrom.pure h
    exact .nil
  | some t =>
    obtain ⟨own, u, hown, h⟩ := WritesFrom.bind h
    obtain ⟨rfl, rfl⟩ := h.pure
    exact .cons ⟨level, .inl hown⟩ .nil

end Lists

/-! ### The cases -/

section Cases

variable {o : ScriptOptions} {level : Nat} {P : Position → Prop} {before : List Script} {s s' : IndentScope}
  {own : Script}

theorem Expression.composed : (e : Expression) → (e.script o level).WritesFrom s own s' →
    (Node.expression e).PlacesIn P → (Node.expression e).Composed o P s own s'
  | .number .., h, hP | .boolean .., h, hP | .keyword .., h, hP | .name .., h, hP | .missing .., h, hP => by
    obtain ⟨rfl, rfl⟩ := WritesFrom.pure h
    exact .of .nil (.marked (hP.start rfl) (.words _))
  | .string .., h, hP => by
    obtain ⟨inside, t, hinside, h⟩ := WritesFrom.bind h
    obtain ⟨rfl, rfl⟩ := h.pure
    obtain ⟨scripts, hparts, rfl⟩ := TextPart.scripts_flat hinside
    exact .of hparts (.marked (hP.start rfl) (.around (.flatten scripts)))
  | .array .., h, hP => by
    obtain ⟨elements, t, helements, h⟩ := WritesFrom.bind h
    obtain ⟨rfl, rfl⟩ := h.pure
    exact .of (Expression.scripts_sequence helements) (.marked (hP.start rfl) (.around (.commas elements)))
  | .object .., h, hP => by
    obtain ⟨members, t, hmembers, h⟩ := WritesFrom.bind h
    have hseq : Sequence o [] s _ members t := Property.scripts_sequence hmembers
    cases members with
    | nil =>
      obtain ⟨rfl, rfl⟩ := WritesFrom.pure h
      exact .of hseq (.marked (hP.start rfl) (.words _))
    | cons first rest =>
      obtain ⟨rfl, rfl⟩ := WritesFrom.pure h
      exact .of hseq (.marked (hP.start rfl) (.around (.commas _)))
  | .binary .., h, hP => by
    obtain ⟨l, t, hl, h⟩ := WritesFrom.bind h
    obtain ⟨r, u, hr, h⟩ := h.bind
    obtain ⟨rfl, rfl⟩ := h.pure
    exact .of (.cons ⟨level, hl⟩ (.cons ⟨level, hr⟩ .nil))
      (.marked (hP.start rfl) (((Weaves.part l).append (.words _)).append (.part r)))
  | .member .., h, hP => by
    obtain ⟨base, t, hbase, h⟩ := WritesFrom.bind h
    obtain ⟨rfl, rfl⟩ := h.pure
    exact .of (.cons ⟨level, hbase⟩ .nil) (.marked (hP.start rfl) ((Weaves.part base).append (.words _)))
  | .index .., h, hP => by
    obtain ⟨base, t, hbase, h⟩ := WritesFrom.bind h
    obtain ⟨key, u, hkey, h⟩ := h.bind
    obtain ⟨rfl, rfl⟩ := h.pure
    exact .of (.cons ⟨level, hbase⟩ (.cons ⟨level, hkey⟩ .nil))
      (.marked (hP.start rfl) ((Weaves.part base).append (.around (.part key))))
  | .call .., h, hP => by
    obtain ⟨base, t, hbase, h⟩ := WritesFrom.bind h
    obtain ⟨args, u, hargs, h⟩ := h.bind
    obtain ⟨rfl, rfl⟩ := h.pure
    exact .of (.cons ⟨level, hbase⟩ (Expression.scripts_sequence hargs))
      (.marked (hP.start rfl) ((Weaves.part base).append (.around (.commas args))))
  | .update _ _ isBefore _, h, hP => by
    obtain ⟨inner, t, hinner, h⟩ := WritesFrom.bind h
    cases isBefore with
    | true =>
      obtain ⟨rfl, rfl⟩ := WritesFrom.pure h
      exact .of (.cons ⟨level, hinner⟩ .nil) (.marked (hP.start rfl) ((Weaves.words _).append (.part inner)))
    | false =>
      obtain ⟨rfl, rfl⟩ := WritesFrom.pure h
      exact .of (.cons ⟨level, hinner⟩ .nil) (.marked (hP.start rfl) ((Weaves.part inner).append (.words _)))
  | .unary .., h, hP | .operation .., h, hP | .spread .., h, hP => by
    obtain ⟨inner, t, hinner, h⟩ := WritesFrom.bind h
    obtain ⟨rfl, rfl⟩ := h.pure
    exact .of (.cons ⟨level, hinner⟩ .nil) (.marked (hP.start rfl) ((Weaves.words _).append (.part inner)))
  | .conditional .., h, hP => by
    obtain ⟨c, t, hc, h⟩ := WritesFrom.bind h
    obtain ⟨yes, u, hyes, h⟩ := h.bind
    obtain ⟨no, v, hno, h⟩ := h.bind
    obtain ⟨rfl, rfl⟩ := h.pure
    exact .of (.cons ⟨level, hc⟩ (.cons ⟨level, hyes⟩ (.cons ⟨level, hno⟩ .nil))) (.marked (hP.start rfl)
      (((((Weaves.part c).append (.words _)).append (.part yes)).append (.words _)).append (.part no)))
  | .paren .., h, hP => by
    obtain ⟨inner, t, hinner, h⟩ := WritesFrom.bind h
    obtain ⟨rfl, rfl⟩ := h.pure
    exact .of (.cons ⟨level, hinner⟩ .nil) (.marked (hP.start rfl) (.around (.part inner)))
  | .new _ _ brackets _, h, hP => by
    obtain ⟨base, t, hbase, h⟩ := WritesFrom.bind h
    obtain ⟨args, u, hargs, h⟩ := h.bind
    have hseq : Sequence o [base] t _ args u := Expression.scripts_sequence hargs
    obtain ⟨rfl, rfl⟩ := h.pure
    refine .of (.cons ⟨level, hbase⟩ hseq) (.marked (hP.start rfl) ?_)
    cases brackets with
    | some b => exact ((Weaves.words _).append (.part base)).append (.around (.commas args))
    | none =>
      -- Arguments without brackets are gone through all the same, but not written.
      refine Weaves.dropping (((Weaves.words _).append (.part base)).append .nothing) fun hnone => ?_
      cases (hnone : _ = [])
      cases hseq
      rfl
  | .yield .., h, hP => by
    obtain ⟨script, t, hvalue, h⟩ := WritesFrom.bind h
    have hseq : Sequence o [] s _ script.toList t := Expression.scriptOption_sequence hvalue
    cases script with
    | none =>
      obtain ⟨rfl, rfl⟩ := WritesFrom.pure h
      exact .of hseq (.marked (hP.start rfl) (.words _))
    | some inner =>
      obtain ⟨rfl, rfl⟩ := WritesFrom.pure h
      exact .of hseq (.marked (hP.start rfl) ((Weaves.words _).append (.part inner)))
  | .function .., h, hP | .arrowBlock .., h, hP => by
    obtain ⟨list, t, hlist, h⟩ := WritesFrom.bind h
    obtain ⟨block, u, hblock, h⟩ := h.bind
    obtain ⟨rfl, rfl⟩ := h.pure
    exact .of ((Parameter.scripts_sequence hlist).append (.cons (.inl ⟨level, hblock⟩) .nil))
      (.marked (hP.start rfl) ((Weaves.around (.commas list)).append (.part block)))
  | .arrowValue _ _ _ _ body, h, hP => by
    obtain ⟨list, t, hlist, h⟩ := WritesFrom.bind h
    obtain ⟨value, u, hvalue, h⟩ := h.bind
    obtain ⟨rfl, rfl⟩ := h.pure
    refine .of ((Parameter.scripts_sequence hlist).append (.cons ⟨level, hvalue⟩ .nil))
      (.marked (hP.start rfl) ((Weaves.around (.commas list)).append ?_))
    split
    · exact .around (.part value)
    · exact .part value

theorem TextPart.composed {escape : String → String} : (p : TextPart) →
    (p.script o level escape).WritesFrom s own s' → (Node.part p).PlacesIn P → (Node.part p).Composed o P s own s'
  | .chunk .., h, hP => by
    obtain ⟨rfl, rfl⟩ := WritesFrom.pure h
    exact .of .nil (.marked (hP.start rfl) (.words _))
  | .splice .., h, hP => by
    obtain ⟨inner, t, hinner, h⟩ := WritesFrom.bind h
    obtain ⟨rfl, rfl⟩ := h.pure
    exact .of (.cons ⟨level, hinner⟩ .nil) (.marked (hP.start rfl) (.around (.part inner)))

theorem Property.composed : (p : Property) → (p.script o level).WritesFrom s own s' →
    (Node.property p).PlacesIn P → (Node.property p).Composed o P s own s'
  | .named .., h, hP | .numbered .., h, hP => by
    obtain ⟨value, t, hvalue, h⟩ := WritesFrom.bind h
    obtain ⟨rfl, rfl⟩ := h.pure
    exact .of (.cons ⟨level, hvalue⟩ .nil) (.marked (hP.start rfl) ((Weaves.words _).append (.part value)))
  | .quoted .., h, hP => by
    obtain ⟨key, t, hkey, h⟩ := WritesFrom.bind h
    obtain ⟨value, u, hvalue, h⟩ := h.bind
    obtain ⟨rfl, rfl⟩ := h.pure
    obtain ⟨scripts, hparts, rfl⟩ := TextPart.scripts_flat hkey
    exact .of (hparts.append (.cons ⟨level, hvalue⟩ .nil))
      (.marked (hP.start rfl) ((Weaves.around (.flatten scripts)).append (.part value)))
  | .computed .., h, hP => by
    obtain ⟨key, t, hkey, h⟩ := WritesFrom.bind h
    obtain ⟨value, u, hvalue, h⟩ := h.bind
    obtain ⟨rfl, rfl⟩ := h.pure
    exact .of (.cons ⟨level, hkey⟩ (.cons ⟨level, hvalue⟩ .nil))
      (.marked (hP.start rfl) ((Weaves.around (.part key)).append (.part value)))
  | .spread .., h, hP => by
    obtain ⟨value, t, hvalue, h⟩ := WritesFrom.bind h
    obtain ⟨rfl, rfl⟩ := h.pure
    exact .of (.cons ⟨level, hvalue⟩ .nil) (.marked (hP.start rfl) (.part value))

theorem Parameter.composed : (p : Parameter) → (p.script o level).WritesFrom s own s' →
    (Node.parameter p).PlacesIn P → (Node.parameter p).Composed o P s own s'
  | .named .., h, hP => by
    obtain ⟨script, t, hdefault, h⟩ := WritesFrom.bind h
    have hseq : Sequence o [] s _ script.toList t := Expression.scriptOption_sequence hdefault
    cases script with
    | none =>
      obtain ⟨rfl, rfl⟩ := WritesFrom.pure h
      exact .of hseq (.marked (hP.start rfl) (.words _))
    | some value =>
      obtain ⟨rfl, rfl⟩ := WritesFrom.pure h
      exact .of hseq (.marked (hP.start rfl) (((Weaves.words _).append (.words _)).append (.part value)))

/-- A block of code that is written as the lines of its statements. -/
theorem Block.composed_lines {span : Span} {brackets : Brackets} {statements : List Statement} {isScoped : Bool}
    (h : (Statement.lines o level statements).WritesFrom s own s') :
    (Node.block (.code span brackets statements isScoped)).Composed o P s own s' := by
  obtain ⟨scripts, hseq, hown⟩ := Statement.lines_flat h
  rw [hown]
  exact .of hseq (.flatten scripts)

theorem Block.composed : (b : Block) → (b.script o level).WritesFrom s own s' → (Node.block b).Composed o P s own s'
  | .code _ _ [] _, h => by
    obtain ⟨rfl, rfl⟩ := WritesFrom.pure h
    exact .of .nil (.words _)
  | .code _ _ (_ :: _) _, h => by
    obtain ⟨lines, t, hlines, h⟩ := WritesFrom.bind h
    obtain ⟨rfl, rfl⟩ := WritesFrom.pure h
    obtain ⟨scripts, hseq, rfl⟩ := Statement.lines_flat hlines
    exact .of hseq (.braced (.flatten scripts))
  | .template .., h => by
    obtain ⟨lines, t, hlines, h⟩ := WritesFrom.bind h
    obtain ⟨rfl, rfl⟩ := h.pure
    obtain ⟨scripts, hseq, rfl⟩ := Line.scripts_flat hlines
    exact .of hseq (.braced (.flatten scripts))

/-- A declared name is marked where it starts. -/
theorem Binding.script_weaves {B : Prop} {b : Binding} (hb : P b.span.start) : Weaves B P [] b.script :=
  .marked hb (.words _)

theorem Declarator.composed {isRaw : Bool} : (d : Declarator) → (d.script o level isRaw).WritesFrom s own s' →
    (Node.declarator d).PlacesIn P → (Node.declarator d).Composed o P s own s'
  | .bind .., h, hP => by
    have hname := Binding.script_weaves (B := True) (hP.component List.mem_cons_self rfl)
    obtain ⟨script, t, hvalue, h⟩ := WritesFrom.bind h
    have hseq : Sequence o [] s _ script.toList t := Expression.scriptOption_sequence hvalue
    cases script with
    | some inner =>
      obtain ⟨rfl, rfl⟩ := WritesFrom.pure h
      exact .of hseq ((hname.append (.words _)).append (.part inner))
    | none =>
      obtain ⟨rfl, rfl⟩ := WritesFrom.pure h
      refine .of hseq ?_
      cases isRaw with
      | true => exact hname
      | false => exact hname.append (.words _)

theorem LoopHead.composed : (head : LoopHead) → (head.script o level).WritesFrom s own s' →
    (Node.head head).Composed o P s own s'
  | .nothing, h => by
    obtain ⟨rfl, rfl⟩ := WritesFrom.pure h
    exact .of .nil .nothing
  | .variable .., h => by
    obtain ⟨list, t, hlist, h⟩ := WritesFrom.bind h
    obtain ⟨rfl, rfl⟩ := h.pure
    exact .of (Declarator.scripts_sequence hlist) ((Weaves.words _).append (.commas list))
  | .expression _, h => .of (.cons ⟨level, h⟩ .nil) (.part own)

/-- Of a declaration of properties only the first name is written before an `in` or an `of`. -/
theorem LoopHead.bindingScript_weaves {B : Prop} : (head : LoopHead) →
    (head.bindingScript o level).WritesFrom s own s' → (Node.head head).PlacesIn P →
    ∃ scripts, Sequence o before s head.written scripts s' ∧ Weaves B P scripts own
  | .nothing, h, _ => ⟨[own], .cons ⟨level, h⟩ .nil, .part own⟩
  | .expression _, h, _ => ⟨[own], .cons ⟨level, h⟩ .nil, .part own⟩
  | .variable span kind declarators, h, hP => by
    unfold LoopHead.bindingScript at h
    by_cases hraw : Declarator.areRaw declarators = true
    · have hhead : (LoopHead.script o level (.variable span kind declarators)).WritesFrom s own s' := by
        rw [LoopHead.script, hraw]
        rwa [if_pos hraw] at h
      rw [LoopHead.written, if_pos hraw]
      exact ⟨[own], .cons ⟨level, hhead⟩ .nil, .part own⟩
    · rw [if_neg hraw] at h
      obtain ⟨rfl, rfl⟩ := WritesFrom.pure h
      rw [LoopHead.written, if_neg hraw]
      refine ⟨[], .nil, ?_⟩
      cases declarators with
      | nil => exact .nothing
      | cons d ds =>
        cases d with
        | bind =>
          exact Binding.script_weaves ((hP.child List.mem_cons_self).component List.mem_cons_self rfl)

theorem Clause.composed : (c : Clause) → (c.script o level).WritesFrom s own s' →
    (Node.clause c).Composed o P s own s'
  | .handler .., h | .finalizer .., h => by
    obtain ⟨block, t, hblock, h⟩ := WritesFrom.bind h
    obtain ⟨rfl, rfl⟩ := h.pure
    exact .of (.cons (.inl ⟨level, hblock⟩) .nil) ((Weaves.words _).append (.part block))

theorem Statement.composed : (t : Statement) → (t.script o level).WritesFrom s own s' →
    (Node.statement t).PlacesIn P → (Node.statement t).Composed o P s own s'
  | .block .., h, hP => by
    obtain ⟨body, t, hbody, h⟩ := WritesFrom.bind h
    obtain ⟨rfl, rfl⟩ := h.pure
    exact .of (.cons (.inl ⟨level, hbody⟩) .nil) (.marked (hP.start rfl) (.part body))
  | .expression .., h, _ => by
    obtain ⟨value, t, hvalue, h⟩ := WritesFrom.bind h
    obtain ⟨rfl, rfl⟩ := h.pure
    exact .of (.cons ⟨level, hvalue⟩ .nil) ((Weaves.part value).append (.words _))
  | .variable .., h, hP => by
    obtain ⟨list, t, hlist, h⟩ := WritesFrom.bind h
    obtain ⟨rfl, rfl⟩ := h.pure
    exact .of (Declarator.scripts_sequence hlist) (.marked (hP.start rfl) (.around (.commas list)))
  | .function _ name _ _ _ _ body, h, hP => by
    have hname := Binding.script_weaves (B := True) (hP.component List.mem_cons_self rfl)
    obtain ⟨list, t, hlist, h⟩ := WritesFrom.bind h
    obtain ⟨block, u, hblock, h⟩ := h.bind
    have hbody : (Node.block body).WrittenFrom o list t block u := .inl ⟨level, hblock⟩
    have hseq : Sequence o [] s _ (list ++ [block]) u := (Parameter.scripts_sequence hlist).append (.cons hbody .nil)
    cases hraw : name.isRaw with
    | true =>
      rw [hraw] at h
      obtain ⟨rfl, rfl⟩ := WritesFrom.pure h
      exact .of hseq (.marked (hP.start rfl) ((Weaves.around (.commas list)).append (.part block)))
    | false =>
      rw [hraw] at h
      obtain ⟨rfl, rfl⟩ := WritesFrom.pure h
      refine .of hseq (.marked (hP.start rfl) (.followed ?_))
      exact hname.followed.append ((Weaves.around (.commas list)).append (.part block))
  | .ifElse _ condition whenTrue _, h, hP => by
    obtain ⟨c, t, hc, h⟩ := WritesFrom.bind h
    obtain ⟨yes, u, hyes, h⟩ := h.bind
    obtain ⟨script, v, hno, h⟩ := h.bind
    have hfirst {B : Prop} : Weaves B P [c, yes] (Script.around "if (" c ") " ++ yes) :=
      (Weaves.around (.part c)).append (.part yes)
    have hcondition : (Node.expression condition).WrittenFrom o [] s c t := ⟨level, hc⟩
    have hwhenTrue : (Node.statement whenTrue).WrittenFrom o [c] t yes u := ⟨level, .inl hyes⟩
    have hseq : Sequence o [] s _ (c :: yes :: script.toList) v :=
      .cons hcondition (.cons hwhenTrue (Statement.scriptOption_sequence hno))
    cases script with
    | none =>
      obtain ⟨rfl, rfl⟩ := WritesFrom.pure h
      exact .of hseq (.marked (hP.start rfl) hfirst)
    | some no =>
      obtain ⟨rfl, rfl⟩ := WritesFrom.pure h
      have hbetween :
          Weaves True P [] (if whenTrue.isBlock then Script.words " " else [.lineBreak, .margin level]) := by
        split
        · exact .words _
        · exact .plain (by simp)
      exact .of hseq (.marked (hP.start rfl) ((hfirst.append hbetween).followed.append (.part no)))
  | .switch .., h, hP => by
    obtain ⟨value, t, hvalue, h⟩ := WritesFrom.bind h
    obtain ⟨body, u, hbody, h⟩ := h.bind
    obtain ⟨rfl, rfl⟩ := h.pure
    exact .of (.cons ⟨level, hvalue⟩ (.cons (.inl ⟨level, hbody⟩) .nil))
      (.marked (hP.start rfl) ((Weaves.around (.part value)).append (.part body)))
  | .label .., h, hP | .result .., h, hP => by
    obtain ⟨script, t, hvalue, h⟩ := WritesFrom.bind h
    have hseq : Sequence o [] s _ script.toList t := Expression.scriptOption_sequence hvalue
    cases script with
    | none =>
      obtain ⟨rfl, rfl⟩ := WritesFrom.pure h
      exact .of hseq (.marked (hP.start rfl) (.words _))
    | some inner =>
      obtain ⟨rfl, rfl⟩ := WritesFrom.pure h
      exact .of hseq (.marked (hP.start rfl) (.around (.part inner)))
  | .whileLoop .., h, hP => by
    obtain ⟨c, t, hc, h⟩ := WritesFrom.bind h
    obtain ⟨body, u, hbody, h⟩ := h.bind
    obtain ⟨rfl, rfl⟩ := h.pure
    exact .of (.cons ⟨level, hc⟩ (.cons ⟨level, .inl hbody⟩ .nil))
      (.marked (hP.start rfl) ((Weaves.around (.part c)).append (.part body)))
  | .doLoop .., h, hP => by
    obtain ⟨body, t, hbody, h⟩ := WritesFrom.bind h
    obtain ⟨c, u, hc, h⟩ := h.bind
    obtain ⟨rfl, rfl⟩ := h.pure
    exact .of (.cons ⟨level, .inl hbody⟩ (.cons ⟨level, hc⟩ .nil))
      (.marked (hP.start rfl) (((Weaves.words _).append (.part body)).append (.around (.part c))))
  | .forLoop .., h, hP => by
    obtain ⟨head, t, hhead, h⟩ := WritesFrom.bind h
    obtain ⟨c, u, hc, h⟩ := h.bind
    obtain ⟨step, v, hstep, h⟩ := h.bind
    obtain ⟨body, w, hbody, h⟩ := h.bind
    obtain ⟨rfl, rfl⟩ := h.pure
    have hseq : Sequence o [head] t _ (c.toList ++ step.toList) v :=
      (Expression.scriptOption_sequence hc).append (Expression.scriptOption_sequence hstep)
    refine .of (.cons ⟨level, hhead⟩ (hseq.append (.cons ⟨level, .inl hbody⟩ .nil))) (.marked (hP.start rfl) ?_)
    exact ((((Weaves.words _).append (.part head)).followed.append (.spaced c)).followed.append
      (.spaced step)).followed.append (.part body)
  | .forIn .., h, hP | .forOf .., h, hP => by
    obtain ⟨head, t, hhead, h⟩ := WritesFrom.bind h
    obtain ⟨value, u, hvalue, h⟩ := h.bind
    obtain ⟨body, v, hbody, h⟩ := h.bind
    obtain ⟨rfl, rfl⟩ := h.pure
    obtain ⟨scripts, hseq, hown⟩ := LoopHead.bindingScript_weaves (B := True) _ hhead (hP.child List.mem_cons_self)
    refine .of (hseq.append (.cons ⟨level, hvalue⟩ (.cons ⟨level, .inl hbody⟩ .nil))) (.marked (hP.start rfl) ?_)
    rw [List.append_cons]
    exact (hown.around.append (.part value)).followed.append (.part body)
  | .attempt .., h, hP => by
    obtain ⟨body, t, hbody, h⟩ := WritesFrom.bind h
    obtain ⟨clauses, u, hclauses, h⟩ := h.bind
    obtain ⟨rfl, rfl⟩ := h.pure
    obtain ⟨scripts, hseq, rfl⟩ := Clause.scripts_flat hclauses
    exact .of (.cons (.inl ⟨level, hbody⟩) hseq)
      (.marked (hP.start rfl) (((Weaves.words _).append (.part body)).append (.flatten scripts)))
  | .throw .., h, hP => by
    obtain ⟨value, t, hvalue, h⟩ := WritesFrom.bind h
    obtain ⟨rfl, rfl⟩ := h.pure
    exact .of (.cons ⟨level, hvalue⟩ .nil) (.marked (hP.start rfl) (.around (.part value)))
  | .imported .., h, hP | .leave .., h, hP | .next .., h, hP | .debugger .., h, hP | .empty .., h, hP
  | .missing .., h, hP => by
    obtain ⟨rfl, rfl⟩ := WritesFrom.pure h
    exact .of .nil (.marked (hP.start rfl) (.words _))

/-- A statement on a line of its own. -/
theorem Statement.composed_onLine {t : Statement}
    (h : (t.onLine level (t.script o level) (t.inner o level)).WritesFrom s own s')
    (hP : (Node.statement t).PlacesIn P) : (Node.statement t).Composed o P s own s' := by
  unfold Statement.onLine at h
  split at h
  · obtain ⟨rfl, rfl⟩ := h.pure
    exact .of .nil .nothing
  · obtain ⟨rfl, rfl⟩ := h.pure
    exact .of .nil .nothing
  · exact .of (.cons (.inr ⟨level, _, _, _, _, rfl, h⟩) .nil) (.part own)
  · obtain ⟨inner, u, hinner, h⟩ := h.bind
    obtain ⟨rfl, rfl⟩ := h.pure
    obtain ⟨scripts, v, hseq, hown, hv⟩ := Statement.composed t hinner hP
    exact ⟨scripts, v, hseq, hown.line, hv⟩

theorem ObjectKey.composed : (k : ObjectKey) → (k.script o level).WritesFrom s own s' →
    (Node.key k).Composed o P s own s'
  | .word .., h => by
    obtain ⟨rfl, rfl⟩ := WritesFrom.pure h
    exact .of .nil (.words _)
  | .quoted .., h => by
    obtain ⟨inside, t, hinside, h⟩ := WritesFrom.bind h
    obtain ⟨rfl, rfl⟩ := h.pure
    obtain ⟨scripts, hparts, rfl⟩ := TextPart.scripts_flat hinside
    exact .of hparts (.around (.flatten scripts))

theorem Tag.composed : (t : Tag) → (t.script o level).WritesFrom s own s' → (Node.tag t).PlacesIn P →
    (Node.tag t).Composed o P s own s'
  | .tag .., h, hP => by
    obtain ⟨script, t, hvalue, h⟩ := WritesFrom.bind h
    obtain ⟨rfl, rfl⟩ := h.pure
    refine .of (Expression.scriptOption_sequence hvalue) ((Weaves.words _).append (.marked (hP.start rfl) ?_))
    cases script with
    | none => exact (Weaves.words _).append (.words _)
    | some inner => exact (Weaves.words _).append (.part inner)

/-- The value of an object stands in what is written with its prototype. -/
theorem Prototype.script_holds {value : Script} : (p : Prototype) →
    (p.script o level value).WritesFrom s own s' → own.Holds value
  | .nothing, h => by
    obtain ⟨rfl, rfl⟩ := WritesFrom.pure h
    exact .refl _
  | .inherits .., h => by
    obtain ⟨proto, t, hproto, h⟩ := WritesFrom.bind h
    obtain ⟨rfl, rfl⟩ := h.pure
    exact (((Script.Holds.refl value).append_right _).append_left _ |>.append_left proto).append_left _

theorem Prototype.composed {value : Script} (hvalue : MarksIn P value) : (p : Prototype) →
    (p.script o level value).WritesFrom s own s' → (Node.prototype p).Composed o P s own s'
  | .nothing, h => by
    obtain ⟨rfl, rfl⟩ := WritesFrom.pure h
    exact .of .nil ⟨fun _ => nofun, fun p hp => .inl (hvalue p hp)⟩
  | .inherits .., h => by
    obtain ⟨proto, t, hproto, h⟩ := WritesFrom.bind h
    obtain ⟨rfl, rfl⟩ := h.pure
    have hgiven {B : Prop} : Weaves B P [] value := ⟨fun _ => nofun, fun p hp => .inl (hvalue p hp)⟩
    exact .of (.cons ⟨level, hproto⟩ .nil) ((hgiven.around.append (.part proto)).append (.words _))

/-- The value of an object has no marks but those of the expression it is given by. -/
theorem Node.marks_of_given {given : Option Script} {text : String} {p : Position}
    (hp : Piece.mark p ∈ given.getD (Script.words text)) : ∃ x ∈ given.toList, Piece.mark p ∈ x := by
  cases given with
  | none => simp [Script.words] at hp
  | some x => exact ⟨x, List.mem_singleton_self x, hp⟩

theorem Line.composed : (l : Line) → (l.script o level).WritesFrom s own s' → (Node.line l).PlacesIn P →
    (Node.line l).Composed o P s own s'
  | .object _ indent body key proto tags value, h, hP => by
    have hbody : P body.start := hP.component (.tail _ (.head _)) rfl
    obtain ⟨_, t, henter, h⟩ := WritesFrom.bind h
    obtain rfl := henter.modify
    obtain ⟨scope, _, hscope, h⟩ := h.bind
    obtain ⟨rfl, rfl⟩ := hscope.get
    obtain ⟨keyScript, t₁, hkey, h⟩ := h.bind
    obtain ⟨scope, _, hscope, h⟩ := h.bind
    obtain ⟨rfl, rfl⟩ := hscope.get
    obtain ⟨given, t₂, hgiven, h⟩ := h.bind
    obtain ⟨whole, t₃, hwhole, h⟩ := h.bind
    obtain ⟨entries, t₄, hentries, h⟩ := h.bind
    obtain ⟨_, t₅, hpush, h⟩ := h.bind
    obtain rfl := hpush.modify
    obtain ⟨scripts, htags, rfl⟩ := Tag.scripts_flat hentries
    have hproto : (Node.prototype proto).WrittenFrom o ([keyScript] ++ given.toList) t₂ whole t₃ := by
      refine ⟨level, _, hwhole, fun q hq => ?_⟩
      obtain ⟨x, hx, hmark⟩ := Node.marks_of_given hq
      exact ⟨x, List.mem_append_right _ hx, hmark⟩
    have hname : (Node.key key).WrittenFrom o [] (s.enter indent.level) keyScript t₁ := ⟨level, hkey⟩
    have hseq : Sequence o [] (s.enter indent.level) _ (keyScript :: (given.toList ++ whole :: scripts)) t₄ :=
      .cons hname ((Expression.scriptOption_sequence hgiven).append (.cons hproto htags))
    have hvalue : True → ∀ v ∈ given.toList, whole.Holds v := by
      intro _ v hv
      rw [Option.mem_toList.mp hv] at hwhole
      exact Prototype.script_holds proto hwhole
    have hassignment {parent : String} :
        Weaves True P [keyScript, whole] (Script.line level (Script.marked body
          (Script.around (parent ++ "[") keyScript "] = " ++ whole ++ Script.words ";"))) :=
      .line (.marked hbody (.followed ((Weaves.around (.part keyScript)).append (.part whole))))
    cases tags with
    | nil =>
      obtain ⟨rfl, rfl⟩ := WritesFrom.pure h
      cases htags
      exact ⟨_, t₃, hseq, .within [keyScript] hassignment hvalue, .inr ⟨_, rfl⟩⟩
    | cons first rest =>
      cases first with
      | tag span =>
        obtain ⟨rfl, rfl⟩ := WritesFrom.pure h
        have hspan : P span.start :=
          (hP.child (.tail _ (.tail _ (List.mem_append_left _ (.head _))))).start rfl
        refine ⟨_, t₄, hseq, .within [keyScript] ?_ hvalue, .inr ⟨_, rfl⟩⟩
        exact hassignment.append (.line (.marked hspan (.around (.flatten scripts))))
  | .delete _ _ body _, h, hP => by
    have hbody : P body.start := hP.component (.tail _ (.head _)) rfl
    obtain ⟨_, t, henter, h⟩ := WritesFrom.bind h
    obtain rfl := henter.modify
    obtain ⟨scope, _, hscope, h⟩ := h.bind
    obtain ⟨rfl, rfl⟩ := hscope.get
    obtain ⟨keyScript, t₁, hkey, h⟩ := h.bind
    obtain ⟨rfl, rfl⟩ := h.pure
    exact .of (.cons ⟨level, hkey⟩ .nil) (.line (.marked hbody (.around (.part keyScript))))
  | .code .., h, _ => by
    obtain ⟨_, t, henter, h⟩ := WritesFrom.bind h
    obtain rfl := henter.modify
    exact .of (.cons ⟨level, .inr h⟩ .nil) (.part own)
  | .text .., h, hP => by
    obtain ⟨_, t, henter, h⟩ := WritesFrom.bind h
    obtain rfl := henter.modify
    obtain ⟨scope, _, hscope, h⟩ := h.bind
    obtain ⟨rfl, rfl⟩ := hscope.get
    obtain ⟨inside, t₁, hinside, h⟩ := h.bind
    obtain ⟨rfl, rfl⟩ := h.pure
    obtain ⟨scripts, hparts, rfl⟩ := TextPart.scripts_flat hinside
    exact .of hparts (.line (.marked (hP.start rfl) (.around (.flatten scripts))))
  | .comment .., h, hP => by
    obtain ⟨rfl, rfl⟩ := WritesFrom.pure h
    exact .of .nil (.line (.marked (hP.start rfl) (.words _)))

/-- **Every node is put together from the nodes below it:** they are written one after the other, and what is
written for the node is made of their scripts. -/
theorem Node.WrittenFrom.composed {n : Node} (h : n.WrittenFrom o before s own s') (hP : n.PlacesIn P)
    (hbefore : ∀ x ∈ before, MarksIn P x) : n.Composed o P s own s' := by
  cases n with
  | expression e => exact e.composed h.choose_spec hP
  | part p =>
    obtain ⟨_, _, h⟩ := h
    exact p.composed h hP
  | property p => exact p.composed h.choose_spec hP
  | parameter p => exact p.composed h.choose_spec hP
  | block b =>
    obtain ⟨_, h⟩ | ⟨_, _, _, _, _, rfl, h⟩ := h
    · exact b.composed h
    · exact Block.composed_lines h
  | statement t =>
    obtain ⟨_, h | h⟩ := h
    · exact t.composed h hP
    · exact Statement.composed_onLine h hP
  | declarator d =>
    obtain ⟨_, _, h⟩ := h
    exact d.composed h hP
  | head head => exact head.composed h.choose_spec
  | clause c => exact c.composed h.choose_spec
  | key k => exact k.composed h.choose_spec
  | tag t => exact t.composed h.choose_spec hP
  | prototype p =>
    obtain ⟨_, value, h, hmarks⟩ := h
    have hvalue : MarksIn P value := by
      intro q hq
      obtain ⟨x, hx, hmark⟩ := hmarks q hq
      exact hbefore x hx q hmark
    exact p.composed hvalue h
  | line l => exact l.composed h.choose_spec hP

/-- The same where it does not matter what is marked. -/
theorem Node.WrittenFrom.composed_anyhow {n : Node} (h : n.WrittenFrom o before s own s') :
    n.Composed o (fun _ => True) s own s' :=
  h.composed (fun _ _ _ _ => trivial) fun _ _ _ _ => trivial

end Cases

end Story
