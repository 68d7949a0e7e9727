import Story.Grammar.Module
import Story.Proofs.Gives
import Story.Proofs.Nodes

/-!
# Where the nodes of a story were read

A tree tells what was read, but not from which place of the text, not in how many blocks of lines, and
not what was reported on the way. This file ties these together:

* every line of a story, at any depth, was read as a line, from a state that is as many blocks deep as
  the line stands in the tree, and every quoted text was read as one;
* wherever something is missing from the tree, a placeholder standing in for it or a list having no
  closing bracket, an error was reported that is still there when the whole story has been read.

The second part is not plain, since diagnostics are dropped whenever reading comes back to an earlier
place. It holds because what is in the tree was read on the way that was not given up, and on that way
reports are only added (`Reading.Part`).

* `Node.Origin` — how a node was read; `Node.Sound` — so were all nodes in it;
* `Node.Built` — how a production puts a node together, layer by layer, from what the readers one level
  further in give. `Grammar.productions_gives` goes through all productions once; what holds of every level
  follows from it by induction on `Built`, here that all nodes are sound (`Grammar.nested_sound`);
* `parseModule_sound` — all lines of a story are sound.

What is left out of a tree was read too, and what was read may have been given up: only the nodes that
are in the tree have an origin.
-/

namespace Story

open Story.Parser Story.Grammar

/-! ### Readings -/

/-- The reading of a whole text, as it is seen from one level of nesting. -/
structure Reading where
  /-- The state before the text. -/
  start : State
  /-- All that is reported in the end, the latest first. -/
  reports : List Diagnostic
  /-- How many levels of nesting are open. -/
  level : Nat

namespace Reading

/-- The same reading one level further in. -/
def deeper (o : Reading) : Reading := { o with level := o.level + 1 }

/-- An error is reported in the end. (A reading that starts beyond the last level of nesting is let off:
there nothing is read and nothing is said about it.) -/
def HasError (o : Reading) : Prop :=
  o.start.depth ≤ nestingLimit → Diagnostic.hasErrors o.reports = true

/-- **A part of a reading:** it starts inside `d` blocks of the text, at the level of the reading, and what
has been reported by its end is not taken back. -/
structure Part (o : Reading) (d : Nat) (s s' : State) : Prop where
  inside : o.start.Inside d s
  depth : s.depth = o.level
  limited : o.start.depth ≤ nestingLimit → o.level ≤ nestingLimit
  kept : s'.reports <:+ o.reports

instance (o : Reading) (d : Nat) : State.Passage (o.Part d) where
  first h _ h' := { h with kept := h'.reports.trans h.kept }
  last h h' _ := ⟨h.inside.extended h', h'.depth.trans h.depth, h.limited, h.kept⟩

/-- An error that stands in the reports at the end of a part is there in the end. -/
theorem Part.hasError {o : Reading} {d : Nat} {s s' : State} (h : o.Part d s s') {report : Diagnostic}
    (hmem : report ∈ s'.reports) (herror : report.isError = true) : o.HasError :=
  fun _ => List.any_eq_true.mpr ⟨report, h.kept.subset hmem, herror⟩

end Reading

namespace Parser

variable {α β : Type} {o : Reading} {d : Nat} {p : Parser α} {φ : α → Prop}

/-! ### Surroundings and reports -/

theorem Gives.inScope (h : p.Gives (o.Part d) φ) : (inScope p).Gives (o.Part d) φ := by
  intro s a s' hs ha
  obtain ⟨t, ht, rfl⟩ := inScope_eq_some.mp ha
  have hpart : o.Part d s t := ⟨hs.inside, hs.depth, hs.limited, hs.kept⟩
  exact h hpart ht

theorem Gives.inBlock (h : p.Gives (o.Part (d + 1)) φ) : (inBlock p).Gives (o.Part d) φ := by
  intro s a s' hs ha
  obtain ⟨t, ht, rfl⟩ := inBlock_eq_some.mp ha
  have hpart : o.Part (d + 1) { s with blocks := s.blocks + 1 } t :=
    ⟨hs.inside.inBlock, hs.depth, hs.limited, hs.kept⟩
  exact h hpart ht

/-- A level can be opened if there is one left. -/
theorem Gives.deeper (hlevel : o.level < nestingLimit) (h : p.Gives (o.deeper.Part d) φ) :
    (deeper p).Gives (o.Part d) φ := by
  intro s a s' hs ha
  obtain ⟨t, ht, rfl⟩ := deeper_eq_some.mp ha
  have hpart : o.deeper.Part d { s with depth := s.depth + 1 } t :=
    ⟨hs.inside.deeper, congrArg (· + 1) hs.depth, fun _ => hlevel, hs.kept⟩
  exact h hpart ht

/-- After an error has been reported on the way, there is an error in the end. -/
theorem gives_reportAt {span : Span} {m : Message} {arguments : List String} {k : Unit → Parser β}
    {ψ : β → Prop} (hm : m.severity = .error) (hk : o.HasError → (k ()).Gives (o.Part d) ψ) :
    (reportAt span m arguments >>= k).Gives (o.Part d) ψ := by
  intro s b s' hs hb
  obtain ⟨⟨⟩, t, ht, hb⟩ := bind_eq_some.mp hb
  have hsteps : s.Extends t ∧ t.Extends s' := ⟨extends_of_eq ht, extends_of_eq hb⟩
  have hreported : o.HasError := by
    cases ht
    have hmem : Diagnostic.of m span arguments ∈ s'.reports :=
      hsteps.2.reports.subset List.mem_cons_self
    refine hs.hasError hmem ?_
    rw [Diagnostic.isError, Diagnostic.of, hm]
    rfl
  exact hk hreported (State.Passage.last hs hsteps.1 hsteps.2) hb

theorem gives_report {m : Message} {arguments : List String} {k : Unit → Parser β} {ψ : β → Prop}
    (hm : m.severity = .error) (hk : o.HasError → (k ()).Gives (o.Part d) ψ) :
    (report m arguments >>= k).Gives (o.Part d) ψ := by
  -- The span of the current token is the only thing that the state has to do with it.
  have at_current : report m arguments >>= k =
      look (fun s => s.current.span) >>= fun span => reportAt span m arguments >>= k := rfl
  rw [at_current]
  exact gives_skip fun _ => gives_reportAt hm hk

theorem gives_expected {what : String} {k : Unit → Parser β} {ψ : β → Prop}
    (hk : o.HasError → (k ()).Gives (o.Part d) ψ) : (expected what >>= k).Gives (o.Part d) ψ :=
  gives_report rfl hk

/-- A token that was expected is there, or an error is reported. -/
theorem expect_gives {kind : TokenKind} :
    (expect kind).Gives (o.Part d) fun found => found = true ∨ o.HasError := by
  unfold expect
  refine gives_skip fun found => gives_ite (fun _ => gives_pure (.inl rfl)) fun _ => ?_
  exact gives_expected fun herror => gives_pure (.inr herror)

end Parser

/-! ### Origins -/

/-- The kind of token that a quote is. -/
def Quote.kind : Quote → TokenKind
  | .single => .singleQuote
  | .double => .doubleQuote
  | .backtick => .backtick

theorem Quote.kind_ne_endfile (quote : Quote) : quote.kind ≠ .endfile := by
  cases quote <;> decide

/-- The closing bracket of a list was found, or an error is reported. -/
def Brackets.Told (o : Reading) (b : Brackets) : Prop := b.closing.isSome = true ∨ o.HasError

namespace Node

/-- **How a node was read,** in a state inside `d` blocks of the text. Lines and quoted texts were read as
such. A placeholder, and a list without its closing bracket, come with an error. Without brackets there
are no arguments. All other nodes are put together from these. -/
def Origin (o : Reading) (d : Nat) : Node → Prop
  | .line l => ∃ g s s', o.start.Inside d s ∧ Grammar.line g s = (some l, s')
  | .expression (.string span quote parts) => ∃ g s s', o.start.Inside d s ∧ s.kind = quote.kind ∧
    stringLiteral g quote s = (some (.string span quote parts), s')
  | .property (.quoted span name quote parts value) => ∃ g multiline s s', o.start.Inside d s ∧
    s.kind = quote.kind ∧
      quotedProperty g multiline s.current quote s = (some (.quoted span name quote parts value), s')
  | .key (.quoted span parts) => ∃ g s s', o.start.Inside d s ∧
    objectKey g s = (some (.quoted span parts), s')
  | .expression (.missing _) | .statement (.missing _) => o.HasError
  | .expression (.array _ b _) | .expression (.object _ b _) | .expression (.call _ _ b _ _)
  | .expression (.new _ _ (some b) _) | .expression (.function _ _ _ _ b _ _)
  | .expression (.arrowBlock _ _ b _ _) | .expression (.arrowValue _ _ b _ _)
  | .statement (.function _ _ _ _ b _ _) | .block (.code _ b _ _) | .block (.template _ b _) => b.Told o
  | .expression (.new _ _ none arguments) => arguments = []
  | _ => True

/-- All nodes in a node have their origins. -/
def Sound (o : Reading) (d : Nat) (n : Node) : Prop := n.Every (Origin o) d

/-- Whether the node goes on from its first child: it is a continuation of an expression, or a `new`. -/
def goesOn : Node → Bool
  | .expression (.member ..) | .expression (.index ..) | .expression (.call ..)
  | .expression (.update _ _ false _) | .expression (.binary ..) | .expression (.conditional ..)
  | .expression (.new ..) => true
  | _ => false

/-- **How a production puts a node together,** inside `d` blocks of the text. What it takes from the readers
one level further in is `given`, and above that there are at most `k` layers of nodes with origins. A node
that goes on from its first child is in one layer with it, since there may be any number of them. -/
inductive Built (o : Reading) (given : Nat → Node → Prop) : Nat → Nat → Node → Prop where
  | inner {d k : Nat} {n : Node} (h : given d n) : Built o given d k n
  | layer {d k : Nat} {n : Node} (horigin : n.Origin o d)
      (hchildren : ∀ c ∈ n.children, Built o given (d + n.opens) k c) : Built o given d (k + 1) n
  | onward {d k : Nat} {n c : Node} {cs : List Node} (horigin : n.Origin o d) (hgoes : n.goesOn = true)
      (hchildren : n.children = c :: cs) (hfirst : Built o given d (k + 1) c)
      (hothers : ∀ c ∈ cs, Built o given d k c) : Built o given d (k + 1) n

/-- All nodes of a list are put together so. -/
def AllBuilt (o : Reading) (given : Nat → Node → Prop) (d k : Nat) (ns : List Node) : Prop :=
  ∀ n ∈ ns, n.Built o given d k

variable {o : Reading} {given : Nat → Node → Prop} {d k : Nat} {n c : Node} {ns ns' : List Node}

theorem AllBuilt.nil : AllBuilt o given d k [] := fun _ h => nomatch h

theorem AllBuilt.cons (h : n.Built o given d k) (hs : AllBuilt o given d k ns) :
    AllBuilt o given d k (n :: ns) :=
  List.forall_mem_cons.mpr ⟨h, hs⟩

theorem AllBuilt.append (h : AllBuilt o given d k ns) (h' : AllBuilt o given d k ns') :
    AllBuilt o given d k (ns ++ ns') :=
  List.forall_mem_append.mpr ⟨h, h'⟩

theorem AllBuilt.map {α : Type} {f : α → Node} {as : List α} (h : ∀ a ∈ as, (f a).Built o given d k) :
    AllBuilt o given d k (as.map f) :=
  List.forall_mem_map.mpr h

theorem AllBuilt.option {α : Type} {f : α → Node} {a : Option α}
    (h : ∀ b ∈ a, (f b).Built o given d k) : AllBuilt o given d k (a.toList.map f) :=
  .map fun b hb => h b (Option.mem_toList.mp hb)

/-- A node with an origin is one layer above its children. -/
theorem Built.of_children (h : n.Origin o d) (hc : AllBuilt o given (d + n.opens) k n.children) :
    n.Built o given d (k + 1) :=
  .layer h hc

/-- A node that goes on adds no layer to what it goes on from. -/
theorem Built.goes_on (h : n.Origin o d) (hgoes : n.goesOn = true) (hc : n.children = c :: ns)
    (hfirst : c.Built o given d (k + 1)) (hothers : AllBuilt o given d k ns) :
    n.Built o given d (k + 1) :=
  .onward h hgoes hc hfirst hothers

theorem opens_of_goesOn (h : n.goesOn = true) : n.opens = 0 := by
  cases n with
  | block => cases h
  | _ => rfl

/-- What is put together from sound nodes is sound. -/
theorem Built.sound (h : n.Built o (fun d n => n.Sound o d) d k) : n.Sound o d := by
  induction h with
  | inner h => exact h
  | layer horigin _ ih => exact every_iff.mpr ⟨horigin, ih⟩
  | onward horigin hgoes hchildren _ _ hfirst hothers =>
    refine every_iff.mpr ⟨horigin, ?_⟩
    rw [opens_of_goesOn hgoes, hchildren]
    exact List.forall_mem_cons.mpr ⟨hfirst, hothers⟩

end Node

open Node (AllBuilt)

/-- Whatever `p` reads is put together so, of the type that `f` makes a node of. -/
abbrev Parser.GivesBuilt {α : Type} (o : Reading) (given : Nat → Node → Prop) (d k : Nat) (p : Parser α)
    (f : α → Node) : Prop :=
  p.Gives (o.Part d) fun a => (f a).Built o given d k

/-- What the readers one level further in give, however many blocks are open. -/
structure Nested.Gives (o : Reading) (given : Nat → Node → Prop) (g : Nested) : Prop where
  expressions (d : Nat) (multiline binary : Bool) :
    (g.expression multiline binary).Gives (o.Part d) fun e => given d (.expression e)
  operands (d : Nat) (multiline : Bool) :
    (g.operand multiline).Gives (o.Part d) fun e => given d (.expression e)
  statements (d : Nat) (multiline : Bool) :
    (g.statement multiline).Gives (o.Part d) fun s => given d (.statement s)

namespace Nested.Gives

variable {o : Reading} {given : Nat → Node → Prop} {d k : Nat} {g : Nested} (hg : g.Gives o given)
  {multiline : Bool}
include hg

theorem expression {binary : Bool} : (g.expression multiline binary).GivesBuilt o given d k .expression :=
  fun _ _ _ hs he => .inner (hg.expressions d multiline binary hs he)

theorem operand : (g.operand multiline).GivesBuilt o given d k .expression :=
  fun _ _ _ hs he => .inner (hg.operands d multiline hs he)

theorem statement : (g.statement multiline).GivesBuilt o given d k .statement :=
  fun _ _ _ hs ht => .inner (hg.statements d multiline hs ht)

end Nested.Gives

namespace Grammar

section Lists

variable {α : Type} {o : Reading} {d : Nat} {style : ListStyle} {item : List α → Parser α}
  {φ : α → Prop}

/-! ### Lists -/

/-- The items that have been read satisfy `φ`, and so do those of the whole list, which is closed unless
an error is reported. -/
def ItemsSatisfy (o : Reading) (φ : α → Prop) :
    Round (ListProgress α) (List α × Option Span) → Prop :=
  Round.Satisfies (fun p => ∀ a ∈ p.items, φ a) fun r =>
    (r.2.isSome = true ∨ o.HasError) ∧ ∀ a ∈ r.1, φ a

theorem listItem_gives (h : ∀ items, (item items).Gives (o.Part d) φ) {p : ListProgress α}
    (hp : ∀ a ∈ p.items, φ a) : (listItem style item p).Gives (o.Part d) (ItemsSatisfy o φ) := by
  unfold listItem
  refine gives_skip fun _ => (h p.items).attempt.bind fun r hr => ?_
  cases r with
  | none => exact gives_skip fun _ => gives_skip fun _ => gives_pure hp
  | some value =>
    have hv : ∀ a ∈ value :: p.items, φ a := List.forall_mem_cons.mpr ⟨hr value rfl, hp⟩
    exact gives_skip fun _ =>
      gives_ite (fun _ => gives_skip fun _ => gives_pure hv) fun _ => gives_pure hv

theorem listElement_gives (h : ∀ items, (item items).Gives (o.Part d) φ) {p : ListProgress α}
    (hp : ∀ a ∈ p.items, φ a) : (listElement style item p).Gives (o.Part d) (ItemsSatisfy o φ) := by
  unfold listElement
  split
  · exact listItem_gives h hp
  · -- A separator that is due and missing, or there and not due, is reported; the items stay as they are.
    refine gives_skip fun s => gives_ite (fun _ => ?_) fun _ => ?_
    · exact gives_ite (fun _ => gives_skip fun _ => gives_skip fun _ => gives_pure hp) fun _ =>
        gives_skip fun _ => gives_pure hp
    · exact gives_ite (fun _ => gives_skip fun _ => listItem_gives h hp) fun _ =>
        listItem_gives h hp

theorem listRound_gives (h : ∀ items, (item items).Gives (o.Part d) φ) {p : ListProgress α}
    (hp : ∀ a ∈ p.items, φ a) : (listRound style item p).Gives (o.Part d) (ItemsSatisfy o φ) := by
  have hr : ∀ a ∈ p.items.reverse, φ a := fun a ha => hp a (List.mem_reverse.mp ha)
  unfold listRound
  refine gives_skip fun _ => gives_skip fun s => gives_ite (fun _ => ?_) fun _ => ?_
  · exact gives_skip fun _ => gives_pure ⟨.inl rfl, hr⟩
  · refine gives_ite (fun _ => ?_) fun _ => listElement_gives h hp
    exact gives_expected fun herror => gives_pure ⟨.inr herror, hr⟩

/-- The items of a list satisfy what whatever is read as an item satisfies, and the list is closed unless
an error is reported. -/
theorem bracketed_gives (h : ∀ items, (item items).Gives (o.Part d) φ) :
    (bracketed style item).Gives (o.Part d) fun r => r.1.Told o ∧ ∀ a ∈ r.2, φ a := by
  have list : (repeated (listRound style item) ⟨[], false⟩).Gives (o.Part d) fun r =>
      (r.2.isSome = true ∨ o.HasError) ∧ ∀ a ∈ r.1, φ a :=
    gives_repeated (fun p hp => listRound_gives h hp) fun a ha => nomatch ha
  unfold bracketed
  exact gives_skip fun _ => list.bind fun _ hr => gives_pure hr

end Lists

variable {o : Reading} {d : Nat} {g : Nested} {multiline : Bool}

/-! ### Texts -/

/-- All finished parts of a text satisfy `φ`. -/
def Content.Satisfies (φ : TextPart → Prop) (c : Content) : Prop := ∀ p ∈ c.parts, φ p

section Parts

variable {φ : TextPart → Prop} {c : Content}

namespace Content.Satisfies

theorem empty : Content.Satisfies φ .empty := fun _ h => nomatch h

theorem add (h : c.Satisfies φ) {p : TextPart} (hp : φ p) : (c.add p).Satisfies φ :=
  List.forall_mem_cons.mpr ⟨hp, h⟩

theorem extend (h : c.Satisfies φ) (start : Position) (text : String) : (c.extend start text).Satisfies φ := by
  unfold Content.extend
  split <;> exact h

variable (hchunk : ∀ span text, φ (.chunk span text))
include hchunk

theorem flush (h : c.Satisfies φ) (stop : Position) : (c.flush stop).Satisfies φ := by
  unfold Content.flush
  split
  · exact h
  · exact List.forall_mem_cons.mpr ⟨hchunk _ _, h⟩

theorem finish (h : c.Satisfies φ) (stop : Position) : ∀ p ∈ c.finish stop, φ p :=
  fun p hp => h.flush hchunk stop p (List.mem_reverse.mp hp)

end Content.Satisfies

/-! What holds of chunks and of spliced values holds of all parts of a text. -/

variable (hchunk : ∀ span text, φ (.chunk span text)) (hsplice : (splice g).Gives (o.Part d) φ)
include hchunk hsplice

theorem starOrSplice_gives (hc : c.Satisfies φ) :
    (starOrSplice g c).Gives (o.Part d) (Content.Satisfies φ) := by
  unfold starOrSplice
  refine gives_skip fun star => hsplice.attempt.bind fun r hr => ?_
  cases r with
  | none => exact gives_skip fun _ => gives_pure (hc.extend _ _)
  | some part => exact gives_pure ((hc.flush hchunk _).add (hr part rfl))

theorem textRound_gives (hc : c.Satisfies φ) :
    (textRound g c).Gives (o.Part d)
      (Round.Satisfies (Content.Satisfies φ) fun ps => ∀ p ∈ ps, φ p) := by
  unfold textRound
  -- The end of the line, a backslash, a star, and any other token.
  refine gives_skip fun s => gives_ite (fun _ => gives_pure (hc.finish hchunk _)) fun _ =>
    gives_ite (fun _ => ?_) fun _ => gives_ite (fun _ => ?_) fun _ => ?_
  · refine gives_skip fun _ => gives_skip fun plain => gives_ite (fun _ => ?_) fun _ => ?_
    · exact gives_pure (hc.flush hchunk _)
    · exact gives_skip fun _ => gives_pure ((hc.flush hchunk _).extend _ _)
  · exact (starOrSplice_gives hchunk hsplice hc).bind fun _ hc' => gives_pure hc'
  · exact gives_skip fun _ => gives_pure (hc.extend _ _)

theorem textContent_gives : (textContent g).Gives (o.Part d) fun ps => ∀ p ∈ ps, φ p :=
  gives_repeated (fun _ hc => textRound_gives hchunk hsplice hc) .empty

theorem quotedRound_gives {quote : TokenKind} {opening : Span} (hc : c.Satisfies φ) :
    (quotedRound g quote opening c).Gives (o.Part d)
      (Round.Satisfies (Content.Satisfies φ) fun r =>
        (r.2.isSome = true ∨ o.HasError) ∧ ∀ p ∈ r.1, φ p) := by
  unfold quotedRound
  -- The closing quote, the end of the text, a backslash, a star, and any other token.
  refine gives_skip fun s => gives_ite (fun _ => ?_) fun _ => gives_ite (fun _ => ?_) fun _ =>
    gives_ite (fun _ => ?_) fun _ => gives_ite (fun _ => ?_) fun _ => ?_
  · exact gives_skip fun _ => gives_pure ⟨.inl rfl, hc.finish hchunk _⟩
  · exact gives_reportAt rfl fun herror => gives_pure ⟨.inr herror, hc.finish hchunk _⟩
  · refine gives_skip fun _ => gives_skip fun next => gives_ite (fun _ => ?_) fun _ => ?_
    · exact gives_skip fun _ => gives_pure ((hc.flush hchunk _).extend _ _)
    · exact gives_skip fun _ => gives_pure (hc.extend _ _)
  · exact (starOrSplice_gives hchunk hsplice hc).bind fun _ hc' => gives_pure hc'
  · exact gives_skip fun _ => gives_pure (hc.extend _ _)

/-- A quoted text is closed unless an error is reported. -/
theorem quoted_gives {quote : TokenKind} :
    (quoted g quote).Gives (o.Part d) fun r =>
      (r.2.isSome = true ∨ o.HasError) ∧ ∀ p ∈ r.1, φ p :=
  gives_skip fun _ => gives_repeated (fun _ hc => quotedRound_gives hchunk hsplice hc) .empty

end Parts

variable {given : Nat → Node → Prop} {k : Nat}

section Productions

variable (hg : g.Gives o given)
include hg

theorem splice_built : (splice g).GivesBuilt o given d (k + 1) .part := by
  refine gives_skip fun star => gives_skip fun _ => ?_
  refine (hg.expression (k := k)).bind fun _ hv => ?_
  refine gives_skip fun _ => ?_
  exact gives_pure (.of_children trivial (.cons hv .nil))

theorem textContent_built :
    (textContent g).Gives (o.Part d) fun ps => ∀ p ∈ ps, (Node.part p).Built o given d (k + 1) :=
  textContent_gives (fun _ _ => .of_children trivial .nil) (splice_built hg)

theorem quoted_built {quote : TokenKind} :
    (quoted g quote).Gives (o.Part d) fun r =>
      (r.2.isSome = true ∨ o.HasError) ∧ ∀ p ∈ r.1, (Node.part p).Built o given d (k + 1) :=
  quoted_gives (fun _ _ => .of_children trivial .nil) (splice_built hg)

/-! ### Pieces of lines -/

theorem objectKey_built : (objectKey g).GivesBuilt o given d (k + 2) .key := by
  have hparts : (objectKey g).Gives (o.Part d) fun x =>
      AllBuilt o given d (k + 1) (Node.key x).children := by
    refine gives_skip fun t => gives_ite (fun _ => ?_) fun _ => ?_
    · exact gives_skip fun _ => gives_skip fun _ => gives_pure .nil
    · refine gives_skip fun _ => ?_
      refine (quoted_built hg (k := k)).bind fun _ hp => ?_
      refine gives_skip fun _ => ?_
      exact gives_pure (.map hp.2)
  -- The key as a whole was read here; that is its origin if it is quoted.
  intro s x s' hs hx
  cases x with
  | word => exact .of_children trivial .nil
  | quoted span parts => exact .of_children ⟨g, s, s', hs.inside, hx⟩ (hparts hs hx)

theorem prototype_built : (prototype g).GivesBuilt o given d (k + 1) .prototype := by
  refine gives_skip fun start => gives_skip fun _ => ?_
  refine gives_ite (fun _ => ?_) fun _ => gives_pure (.of_children trivial .nil)
  refine gives_skip fun _ => ?_
  refine (hg.expression (k := k)).bind fun _ hv => ?_
  refine gives_skip fun _ => gives_skip fun _ => ?_
  exact gives_pure (.of_children trivial (.cons hv .nil))

theorem tag_built : (tag g).GivesBuilt o given d (k + 1) .tag := by
  have hvalue : (tagValue g).Gives (o.Part d) fun v =>
      ∀ e ∈ v, (Node.expression e).Built o given d k := by
    refine gives_skip fun _ => gives_ite (fun _ => ?_) fun _ => gives_pure forall_mem_none
    refine gives_skip fun _ => ?_
    refine (hg.expression (k := k)).bind fun _ hv => ?_
    refine gives_skip fun _ => ?_
    exact gives_pure (forall_mem_some hv)
  refine gives_skip fun _ => gives_skip fun value => gives_skip fun _ => ?_
  refine gives_skip fun _ => gives_skip fun _ => ?_
  refine hvalue.bind fun _ hv => ?_
  refine gives_skip fun _ => gives_skip fun _ => ?_
  exact gives_pure (.of_children trivial (.option hv))

omit hg in
theorem tags_gives {φ : Tag → Prop} (htag : (tag g).Gives (o.Part d) φ) :
    (tags g).Gives (o.Part d) fun ts => ∀ t ∈ ts, φ t := by
  have hround (ts : List Tag) (h : ∀ t ∈ ts, φ t) : (tagRound g ts).Gives (o.Part d)
      (Round.Satisfies (fun ts => ∀ t ∈ ts, φ t) fun ts => ∀ t ∈ ts, φ t) := by
    refine gives_skip fun s => gives_ite (fun _ => ?_) fun _ => ?_
    · exact htag.bind fun _ ht => gives_skip fun _ => gives_pure (List.forall_mem_cons.mpr ⟨ht, h⟩)
    · exact gives_pure fun t ht => h t (List.mem_reverse.mp ht)
  exact gives_repeated hround (List.forall_mem_nil _)

theorem initializer_built :
    (initializer g).Gives (o.Part d) fun v => ∀ e ∈ v, (Node.expression e).Built o given d k := by
  refine gives_skip fun s => gives_ite (fun _ => ?_) fun _ => gives_pure forall_mem_none
  refine gives_skip fun _ => gives_skip fun _ => ?_
  refine (hg.expression (k := k)).bind fun _ hv => ?_
  exact gives_pure (forall_mem_some hv)

theorem codeBlock_built {isScoped : Bool} : (codeBlock g isScoped).GivesBuilt o given d (k + 1) .block := by
  have list : (bracketed statementList fun _ => g.statement true).Gives (o.Part d) fun r =>
      r.1.Told o ∧ ∀ s ∈ r.2, (Node.statement s).Built o given d k :=
    bracketed_gives fun _ => hg.statement
  refine gives_skip fun _ => gives_ite (fun _ => list.inScope.bind fun _ h => ?_) fun _ =>
    list.bind fun _ h => ?_
  all_goals exact gives_skip fun _ => gives_pure (.of_children h.1 (.map h.2))

theorem expectStatement_built : (expectStatement g).GivesBuilt o given d (k + 1) .statement := by
  refine (hg.statement (k := k + 1)).found.bind fun r hr => ?_
  cases r with
  | none =>
    refine gives_report rfl fun herror => ?_
    refine gives_skip fun _ => gives_skip fun _ => ?_
    exact gives_pure (.of_children herror .nil)
  | some statement => exact gives_pure (hr statement rfl)

/-! ### Lines -/

/-- Of all that is in a line, the name of an object has most layers: a text whose parts are values. -/
theorem line_children_built :
    (line g).Gives (o.Part d) fun l => AllBuilt o given d (k + 2) (Node.line l).children := by
  refine Gives.rewind <| Gives.orElse ?_ <| Gives.orElse ?_ <| Gives.orElse ?_ <|
    Gives.orElse ?_ <| Gives.orElse ?_ ?_
  -- Where the line starts and its indentation are no nodes.
  all_goals refine gives_skip fun start => gives_skip fun indent => ?_
  · -- A block of code.
    refine gives_skip fun star => ?_
    refine (codeBlock_built hg (k := k)).bind fun block hb => ?_
    refine gives_skip fun span => gives_skip fun finished => ?_
    exact gives_pure (.cons (.of_children trivial (.cons hb .nil)) .nil)
  · -- A deletion.
    refine gives_skip fun keyword => gives_skip fun blanks => ?_
    refine (objectKey_built hg (k := k)).bind fun key hk => ?_
    refine gives_skip fun body => gives_skip fun span => gives_skip fun lineEnd => ?_
    exact gives_pure (.cons hk .nil)
  · -- An object.
    refine gives_skip fun bodyStart => ?_
    refine (objectKey_built hg (k := k)).bind fun key hk => ?_
    refine gives_skip fun blanks => ?_
    refine (prototype_built hg (k := k + 1)).bind fun proto hp => ?_
    refine (tags_gives (tag_built hg (k := k + 1))).bind fun tags ht => ?_
    refine gives_skip fun duplicates => ?_
    refine (initializer_built hg (k := k + 2)).bind fun value hv => ?_
    refine gives_skip fun body => gives_skip fun span => gives_skip fun lineEnd => ?_
    exact gives_pure (.cons hk (.cons hp ((AllBuilt.map ht).append (.option hv))))
  · -- A statement.
    refine gives_skip fun star => gives_skip fun blanks => gives_skip fun required => ?_
    refine (expectStatement_built hg (k := k + 1)).bind fun statement hs => ?_
    refine gives_skip fun span => gives_skip fun finished => ?_
    exact gives_pure (.cons hs .nil)
  · -- A comment, which has no nodes in it.
    refine gives_skip fun sign => gives_skip fun advanced => gives_skip fun text => ?_
    refine gives_skip fun skipped => gives_skip fun span => gives_skip fun ended => ?_
    exact gives_pure .nil
  · -- Text.
    refine gives_skip fun required => ?_
    refine (textContent_built hg (k := k + 1)).bind fun parts hp => ?_
    refine gives_skip fun span => gives_skip fun ended => ?_
    exact gives_pure (.map hp)

theorem line_built : (line g).GivesBuilt o given d (k + 3) .line :=
  fun s _ s' hs hl => .of_children ⟨g, s, s', hs.inside, hl⟩ (line_children_built hg hs hl)

omit hg in
theorem templateRound_gives {φ : Line → Prop} (hline : (line g).Gives (o.Part d) φ) {opening : Span}
    {lines : List Line} (h : ∀ l ∈ lines, φ l) :
    (templateRound g opening lines).Gives (o.Part d) (Round.Satisfies (fun ls => ∀ l ∈ ls, φ l)
      fun r => (r.2.isSome = true ∨ o.HasError) ∧ ∀ l ∈ r.1, φ l) := by
  have hr : ∀ l ∈ lines.reverse, φ l := fun l hl => h l (List.mem_reverse.mp hl)
  refine gives_skip fun _ => gives_ite (fun _ => ?_) fun _ => ?_
  · exact gives_reportAt rfl fun herror => gives_pure ⟨.inr herror, hr⟩
  refine gives_skip fun ending => ?_
  cases ending with
  | some closing => exact gives_pure ⟨.inl rfl, hr⟩
  | none =>
    -- A line that can not be read leaves the lines so far.
    refine hline.withProgress.bind fun l hl => ?_
    cases l with
    | none => exact gives_pure h
    | some l => exact gives_pure (List.forall_mem_cons.mpr ⟨hl l rfl, h⟩)

theorem block_built : (block g multiline).GivesBuilt o given d (k + 4) .block := by
  -- The lines of a block stand in one block more.
  have hlines (opening : Span) : (repeated (templateRound g opening) []).Gives (o.Part (d + 1))
      fun r => (r.2.isSome = true ∨ o.HasError) ∧ ∀ l ∈ r.1, (Node.line l).Built o given (d + 1) (k + 3) :=
    gives_repeated (fun _ h => templateRound_gives (line_built hg) h) (List.forall_mem_nil _)
  have htemplate : (templateBlock g).GivesBuilt o given d (k + 4) .block := by
    refine gives_skip fun opening => gives_skip fun _ => gives_skip fun _ => ?_
    refine (hlines opening.span).inBlock.inScope.bind fun _ hl => ?_
    refine gives_skip fun _ => ?_
    exact gives_pure (.of_children hl.1 (.map hl.2))
  refine Gives.rewind ?_
  refine gives_skip fun _ => gives_skip fun _ => gives_skip fun _ => ?_
  exact gives_ite (fun _ => htemplate) fun _ => codeBlock_built hg

/-! ### Literals -/

omit hg in
/-- A placeholder comes with an error. -/
theorem missing_built (herror : o.HasError) (span : Span) :
    (Node.expression (.missing span)).Built o given d (k + 1) :=
  .of_children herror .nil

omit hg in
theorem number_built : number.GivesBuilt o given d (k + 1) .expression := by
  refine gives_skip fun s => gives_skip fun _ => gives_skip fun _ => ?_
  exact gives_pure (.of_children trivial .nil)

theorem stringLiteral_built {quote : Quote} {s s' : State} {e : Expression} (hk : s.kind = quote.kind)
    (hs : o.Part d s s') (he : stringLiteral g quote s = (some e, s')) :
    (Node.expression e).Built o given d (k + 2) := by
  have hparts : (stringLiteral g quote).Gives (o.Part d) fun e => ∃ span parts,
      e = .string span quote parts ∧ ∀ p ∈ parts, (Node.part p).Built o given d (k + 1) := by
    refine gives_skip fun _ => ?_
    refine (quoted_built hg (k := k)).bind fun _ hp => ?_
    refine gives_skip fun _ => ?_
    exact gives_pure ⟨_, _, rfl, hp.2⟩
  obtain ⟨span, parts, rfl, hp⟩ := hparts hs he
  exact .of_children ⟨g, s, s', hs.inside, hk, he⟩ (.map hp)

theorem element_built : (element g multiline).GivesBuilt o given d (k + 1) .expression := by
  refine gives_skip fun s => gives_ite (fun _ => ?_) fun _ => hg.expression
  refine gives_skip fun _ => ?_
  refine (hg.expression (k := k)).bind fun _ he => ?_
  refine gives_skip fun _ => ?_
  exact gives_pure (.of_children trivial (.cons he .nil))

theorem elements_built {style : ListStyle} :
    (bracketed style fun _ => element g multiline).Gives (o.Part d) fun r =>
      r.1.Told o ∧ ∀ e ∈ r.2, (Node.expression e).Built o given d (k + 1) :=
  bracketed_gives fun _ => element_built hg

theorem arrayLiteral_built : (arrayLiteral g multiline).GivesBuilt o given d (k + 2) .expression := by
  refine gives_skip fun start => ?_
  refine (elements_built hg (k := k)).bind fun _ he => ?_
  refine gives_skip fun _ => ?_
  exact gives_pure (.of_children he.1 (.map he.2))

theorem expectExpression_built :
    (expectExpression g multiline).GivesBuilt o given d (k + 1) .expression := by
  refine (hg.expression (k := k + 1)).found.bind fun r hr => ?_
  cases r with
  | none =>
    exact gives_report rfl fun herror => gives_skip fun _ => gives_pure (missing_built herror _)
  | some value => exact gives_pure (hr value rfl)

theorem propertyValue_built {shorthand : Option Expression}
    (h : ∀ e ∈ shorthand, (Node.expression e).Built o given d (k + 1)) :
    (propertyValue g multiline shorthand).GivesBuilt o given d (k + 1) .expression := by
  refine gives_skip fun _ => gives_ite (fun _ => gives_skip fun _ => expectExpression_built hg)
    fun _ => ?_
  cases shorthand with
  | none => exact gives_expected fun herror => gives_skip fun _ => gives_pure (missing_built herror _)
  | some value => exact gives_pure (h value rfl)

theorem wordProperty_built {t : Token} :
    (wordProperty g multiline t).GivesBuilt o given d (k + 2) .property := by
  refine gives_ite (fun _ => ?_) fun _ => ?_
  · refine gives_skip fun _ => ?_
    refine (propertyValue_built hg forall_mem_none (k := k)).bind fun _ hv => ?_
    refine gives_skip fun _ => ?_
    exact gives_pure (.of_children trivial (.cons hv .nil))
  · refine gives_skip fun _ => gives_skip fun s => gives_skip fun _ => ?_
    refine (propertyValue_built hg (k := k) ?_).bind fun _ hv => ?_
    · split
      · exact forall_mem_none
      · exact forall_mem_some (.of_children trivial .nil)
    refine gives_skip fun _ => ?_
    exact gives_pure (.of_children trivial (.cons hv .nil))

theorem quotedProperty_built {quote : Quote} {s s' : State} {p : Property} (hk : s.kind = quote.kind)
    (hs : o.Part d s s') (h : quotedProperty g multiline s.current quote s = (some p, s')) :
    (Node.property p).Built o given d (k + 2) := by
  have hparts {t : Token} :
      (quotedProperty g multiline t quote).Gives (o.Part d) fun p => ∃ span name parts value,
        p = .quoted span name quote parts value ∧ (∀ p ∈ parts, (Node.part p).Built o given d (k + 1)) ∧
          (Node.expression value).Built o given d (k + 1) := by
    refine (quoted_built hg (k := k)).bind fun _ hp => ?_
    refine gives_skip fun _ => ?_
    refine (propertyValue_built hg forall_mem_none (k := k)).bind fun _ hv => ?_
    refine gives_skip fun _ => ?_
    exact gives_pure ⟨_, _, _, _, rfl, hp.2, hv⟩
  obtain ⟨span, name, parts, value, rfl, hp, hv⟩ := hparts hs h
  exact .of_children ⟨g, multiline, s, s', hs.inside, hk, h⟩ ((AllBuilt.map hp).append (.cons hv .nil))

theorem computedProperty_built : (computedProperty g multiline).GivesBuilt o given d (k + 2) .property := by
  refine gives_skip fun start => gives_skip fun _ => gives_skip fun _ => ?_
  refine (hg.expression (k := k + 1)).bind fun _ hk => ?_
  refine gives_skip fun _ => gives_skip fun _ => ?_
  refine (propertyValue_built hg forall_mem_none (k := k)).bind fun _ hv => ?_
  refine gives_skip fun _ => ?_
  exact gives_pure (.of_children trivial (.cons hk (.cons hv .nil)))

theorem property_built : (property g multiline).GivesBuilt o given d (k + 2) .property := by
  have hspread (start : Position) : Parser.GivesBuilt o given d (k + 2) (do
      let value ← element g multiline
      return .spread (← spanFrom start) value) .property := by
    refine (element_built hg (k := k)).bind fun _ hv => ?_
    refine gives_skip fun _ => ?_
    exact gives_pure (.of_children trivial (.cons hv .nil))
  -- The origin of a quoted key tells which quote was there, so the cases are split in the run itself.
  intro s p s' hs h
  unfold property at h
  rw [state_bind_run] at h
  split at h
  · exact hspread _ hs h
  split at h
  · exact wordProperty_built hg hs h
  · next hk => exact quotedProperty_built hg hk hs h
  · next hk => exact quotedProperty_built hg hk hs h
  · exact computedProperty_built hg hs h
  · cases h

theorem objectLiteral_built : (objectLiteral g multiline).GivesBuilt o given d (k + 3) .expression := by
  have list : (bracketed (braceList multiline) fun _ => property g multiline).Gives (o.Part d) fun r =>
      r.1.Told o ∧ ∀ p ∈ r.2, (Node.property p).Built o given d (k + 2) :=
    bracketed_gives fun _ => property_built hg
  refine gives_skip fun start => ?_
  refine list.bind fun _ hp => ?_
  refine gives_skip fun _ => ?_
  exact gives_pure (.of_children hp.1 (.map hp.2))

theorem parenExpression_built : (parenExpression g).GivesBuilt o given d (k + 2) .expression := by
  refine gives_skip fun start => gives_skip fun _ => gives_skip fun _ => ?_
  refine (expectExpression_built hg (k := k)).bind fun _ he => ?_
  refine gives_skip fun _ => gives_skip fun _ => gives_skip fun _ => ?_
  exact gives_pure (.of_children trivial (.cons he .nil))

/-! ### Functions -/

theorem parameters_built :
    (parameters g multiline).Gives (o.Part d) fun r =>
      r.1.Told o ∧ ∀ p ∈ r.2, (Node.parameter p).Built o given d (k + 1) := by
  have hdefault : (parameterDefault g multiline).GivesBuilt o given d k .expression := by
    refine gives_skip fun _ => gives_skip fun _ => gives_skip fun _ => ?_
    exact hg.expression
  have hparameter : (parameter g multiline).GivesBuilt o given d (k + 1) .parameter := by
    refine gives_skip fun s => gives_ite (fun _ => gives_skip fun _ => ?_) fun _ => ?_
    all_goals exact gives_skip fun _ => gives_skip fun _ => gives_skip fun _ =>
      hdefault.attempt.bind fun _ hv => gives_skip fun _ => gives_skip fun _ =>
      gives_pure (.of_children trivial (.option hv))
  exact bracketed_gives fun _ => hparameter

theorem functionExpression_built {start : Position} {isAsync : Bool} :
    (functionExpression g start isAsync multiline).GivesBuilt o given d (k + 5) .expression := by
  -- What is read in the scope of the function comes out as one value, so it is described as one.
  have hinner : (inScope do
      let name ← functionName
      let _ ← blanks
      let params ← parameters g multiline
      let body ← block g multiline
      return (name, params, body)).Gives (o.Part d) fun r =>
        (r.2.1.1.Told o ∧ ∀ p ∈ r.2.1.2, (Node.parameter p).Built o given d (k + 4)) ∧
          (Node.block r.2.2).Built o given d (k + 4) :=
    (gives_skip fun _ => gives_skip fun _ => (parameters_built hg).bind fun _ hp =>
      (block_built hg).bind fun _ hb => gives_pure ⟨hp, hb⟩).inScope
  refine gives_skip fun _ => gives_skip fun _ => gives_skip fun isGenerator => ?_
  refine gives_skip fun _ => ?_
  refine hinner.bind fun _ h => ?_
  refine gives_skip fun _ => ?_
  exact gives_pure (.of_children h.1.1 ((AllBuilt.map h.1.2).append (.cons h.2 .nil)))

theorem arrowParameters_built :
    (arrowParameters g multiline).Gives (o.Part d) fun r =>
      r.1.Told o ∧ ∀ p ∈ r.2, (Node.parameter p).Built o given d (k + 1) := by
  refine gives_skip fun s => gives_ite (fun _ => ?_) fun _ => ?_
  · exact (parameters_built hg).bind fun _ hp => gives_skip fun _ => gives_pure hp
  · -- One name without brackets: its own span stands in for both of them.
    refine gives_skip fun _ => gives_skip fun _ => gives_skip fun _ => ?_
    refine gives_pure ⟨.inl rfl, ?_⟩
    exact List.forall_mem_singleton.mpr (.of_children trivial .nil)

theorem arrowFunction_built {start : Position} {isAsync : Bool} :
    (arrowFunction g start isAsync multiline).GivesBuilt o given d (k + 5) .expression := by
  refine Gives.inScope ?_
  refine (arrowParameters_built (k := k + 3) hg).bind fun _ hp => ?_
  refine gives_skip fun _ => gives_skip fun _ => gives_skip fun _ => ?_
  refine (block_built (k := k) hg).found.bind fun r hr => ?_
  cases r with
  | some body =>
    exact gives_skip fun _ => gives_pure
      (.of_children hp.1 ((AllBuilt.map hp.2).append (.cons (hr body rfl) .nil)))
  | none =>
    refine gives_skip fun _ => ?_
    refine (expectExpression_built hg (k := k + 3)).bind fun _ he => ?_
    refine gives_skip fun _ => ?_
    exact gives_pure (.of_children hp.1 ((AllBuilt.map hp.2).append (.cons he .nil)))

/-! ### Operands -/

theorem wordOperand_built : (wordOperand g multiline).GivesBuilt o given d (k + 5) .expression := by
  have hasync : (asyncFunction g multiline).GivesBuilt o given d (k + 5) .expression := by
    refine Gives.rewind ?_
    refine gives_skip fun _ => gives_skip fun _ => gives_skip fun _ => ?_
    refine gives_skip fun _ => ?_
    exact gives_ite (fun _ => functionExpression_built hg) fun _ => arrowFunction_built hg
  refine gives_skip fun s => gives_ite (fun _ => number_built) fun _ => gives_ite (fun _ => ?_)
    fun _ => ?_
  · exact gives_skip fun _ => gives_pure (.of_children trivial .nil)
  split
  · exact gives_skip fun _ => gives_pure (.of_children trivial .nil)
  · refine gives_ite (fun _ => functionExpression_built hg) fun _ =>
      gives_ite (fun _ => hasync) fun _ => gives_skip fun _ => ?_
    exact (arrowFunction_built hg).orElse
      (gives_skip fun _ => gives_pure (.of_children trivial .nil))

theorem plainOperand_built : (plainOperand g multiline).GivesBuilt o given d (k + 5) .expression := by
  have hfraction (condition : Bool) : Parser.GivesBuilt o given d (k + 5) (do
      require condition
      number) .expression :=
    gives_skip fun _ => number_built
  have hraw : rawName.GivesBuilt o given d (k + 5) .expression := by
    refine gives_skip fun _ => gives_skip fun _ => gives_skip fun _ => ?_
    refine gives_skip fun _ => gives_skip fun _ => ?_
    exact gives_pure (.of_children trivial .nil)
  -- The origin of a string tells which quote was there, so the cases are split in the run itself.
  intro s e s' hs h
  unfold plainOperand at h
  rw [state_bind_run] at h
  split at h
  · exact wordOperand_built hg hs h
  · exact hfraction _ hs h
  · exact hraw hs h
  · next hk => exact stringLiteral_built hg hk hs h
  · next hk => exact stringLiteral_built hg hk hs h
  · next hk => exact stringLiteral_built hg hk hs h
  · exact (arrowFunction_built hg).orElse (parenExpression_built hg) hs h
  · exact arrayLiteral_built hg hs h
  · exact objectLiteral_built hg hs h
  · cases h

omit hg in
theorem memberName_built {object : Expression} (h : (Node.expression object).Built o given d (k + 1))
    {start : Position} {isOptional : Bool} :
    (memberName object start isOptional).GivesBuilt o given d (k + 1) .expression := by
  refine gives_skip fun name => gives_skip fun _ => gives_skip fun _ => ?_
  exact gives_pure (.goes_on trivial rfl rfl h .nil)

omit hg in
theorem newMembers_built {callee : Expression} (h : (Node.expression callee).Built o given d (k + 1)) :
    (repeated newMemberRound callee).GivesBuilt o given d (k + 1) .expression := by
  have hround (callee : Expression) (hc : (Node.expression callee).Built o given d (k + 1)) :
      (newMemberRound callee).Gives (o.Part d) (Round.Satisfies
        (fun e => (Node.expression e).Built o given d (k + 1))
        fun e => (Node.expression e).Built o given d (k + 1)) := by
    refine Gives.bind (Gives.attempt (gives_skip fun _ => memberName_built hc)) fun r hr => ?_
    cases r with
    | none => exact gives_pure hc
    | some member => exact gives_pure (hr member rfl)
  exact gives_repeated hround h

theorem newTail_built {callee : Expression} {start : Position}
    (h : (Node.expression callee).Built o given d (k + 2)) :
    (newTail g multiline callee start).GivesBuilt o given d (k + 2) .expression := by
  refine (newMembers_built h).bind fun _ hc => (elements_built (k := k) hg).found.bind fun r hr => ?_
  cases r with
  | none => exact gives_skip fun _ => gives_pure (.goes_on rfl rfl rfl hc .nil)
  | some r =>
    obtain ⟨hb, ha⟩ := hr r rfl
    exact gives_skip fun _ => gives_pure (.goes_on hb rfl rfl hc (.map ha))

theorem operand_built : (operand g multiline).GivesBuilt o given d (k + 5) .expression :=
  -- Going from the innermost `new` outwards, each takes what has been read so far for its callee.
  gives_skip fun starts => (plainOperand_built hg).bind fun _ hc =>
    gives_foldlM (fun _ _ h => newTail_built hg h) starts hc

theorem prefixed_built : (prefixed g multiline).GivesBuilt o given d (k + 5) .expression := by
  -- An operator before its operand has the operand as its only child.
  have hoperand {f : Expression → Span → Expression} {start : Position}
      (hf : ∀ e span, (Node.expression (f e span)).Origin o d ∧
        (Node.expression (f e span)).children = [.expression e]) :
      (g.operand multiline >>= fun e => spanFrom start >>= fun span => pure (f e span)).GivesBuilt
        o given d (k + 5) .expression := by
    refine (hg.operand (k := k + 4)).bind fun e he => ?_
    refine gives_skip fun span => ?_
    exact gives_pure (.layer (hf e span).1 ((hf e span).2 ▸ List.forall_mem_singleton.mpr he))
  refine gives_skip fun s => gives_ite (fun _ => ?_) fun _ => ?_
  · exact gives_skip fun _ => gives_skip fun _ => hoperand fun _ _ => ⟨trivial, rfl⟩
  split
  · refine gives_skip fun _ => gives_skip fun _ => gives_skip fun _ => ?_
    exact hoperand fun _ _ => ⟨trivial, rfl⟩
  split
  · refine gives_skip fun _ => gives_skip fun _ => gives_skip fun _ => ?_
    refine gives_skip fun _ => ?_
    exact hoperand fun _ _ => ⟨trivial, rfl⟩
  refine gives_ite (fun _ => ?_) fun _ => operand_built hg
  have hvalue : (do let _ ← blanks; g.expression multiline true).GivesBuilt o given d (k + 4)
      .expression :=
    gives_skip fun _ => hg.expression
  refine gives_skip fun _ => gives_skip fun _ => gives_skip fun _ => ?_
  refine hvalue.attempt.bind fun _ hv => ?_
  refine gives_skip fun _ => ?_
  exact gives_pure (.of_children trivial (.option hv))

/-! ### Continuations -/

section Continuations

variable {e : Expression} {start : Position} (he : (Node.expression e).Built o given d (k + 6))
include he

theorem attached_built : (attached g multiline start e).GivesBuilt o given d (k + 6) .expression := by
  have hattachment (isOptional : Bool) :
      (attachment g multiline start e isOptional).GivesBuilt o given d (k + 6) .expression := by
    refine gives_skip fun kind => ?_
    -- A member, a member after `?.`, a call, an index, `++` and `--`.
    split
    · exact gives_skip fun _ => gives_skip fun _ => memberName_built he
    · exact gives_skip fun _ => memberName_built he
    · refine (elements_built hg (k := k + 4)).bind fun _ ha => ?_
      refine gives_skip fun _ => ?_
      exact gives_pure (.goes_on ha.1 rfl rfl he (.map ha.2))
    · refine gives_skip fun _ => gives_skip fun _ => ?_
      refine (expectExpression_built hg (k := k + 4)).bind fun _ hi => ?_
      refine gives_skip fun _ => gives_skip fun _ => gives_skip fun _ => ?_
      exact gives_pure (.goes_on trivial rfl rfl he (.cons hi .nil))
    · refine gives_skip fun _ => gives_skip fun _ => gives_skip fun _ => ?_
      exact gives_pure (.goes_on trivial rfl rfl he .nil)
    · refine gives_skip fun _ => gives_skip fun _ => gives_skip fun _ => ?_
      exact gives_pure (.goes_on trivial rfl rfl he .nil)
    · exact gives_fail
  refine gives_ite (fun _ => gives_skip fun _ => ?_) fun _ => ?_
  all_goals exact gives_skip fun _ => hattachment _

theorem operated_built : (operated g multiline start e).GivesBuilt o given d (k + 6) .expression := by
  refine gives_skip fun _ => gives_skip fun s => ?_
  split
  · exact gives_fail
  · -- Whether the target is reported makes no difference to the node.
    refine gives_skip fun _ => gives_skip fun _ => ?_
    refine (prefixed_built (k := k) hg).bind fun _ hr => ?_
    refine gives_ite (fun _ => gives_skip fun _ => ?_) fun _ => ?_
    all_goals exact gives_skip fun _ =>
      gives_pure (.goes_on trivial rfl rfl he (.cons hr .nil))

theorem conditional_built : (conditional g multiline start e).GivesBuilt o given d (k + 6) .expression := by
  have hotherwise : (otherwiseValue g multiline).GivesBuilt o given d (k + 5) .expression := by
    refine expect_gives.bind fun found hfound => gives_ite (fun _ => ?_) fun hnot => ?_
    · exact gives_skip fun _ => expectExpression_built hg
    · have herror : o.HasError := hfound.resolve_left hnot
      exact gives_skip fun _ => gives_pure (missing_built herror _)
  refine gives_skip fun _ => gives_skip fun whenTrue => gives_skip fun _ => ?_
  refine gives_skip fun whenFalse => ?_
  refine (hg.expression (k := k + 5)).bind fun _ ht => ?_
  refine gives_skip fun _ => ?_
  refine hotherwise.bind fun _ hf => ?_
  refine gives_skip fun _ => ?_
  exact gives_pure (.goes_on trivial rfl rfl he (.cons ht (.cons hf .nil)))

theorem continuation_built {binary : Bool} :
    (continuation g multiline binary start e).Gives (o.Part d) (Round.Satisfies
      (fun e => (Node.expression e).Built o given d (k + 6))
      fun e => (Node.expression e).Built o given d (k + 6)) := by
  -- No continuation adds a layer, so any number of them adds none.
  have hnext : (if binary then
        attached g multiline start e <|> operated g multiline start e <|>
          conditional g multiline start e
      else attached g multiline start e).GivesBuilt o given d (k + 6) .expression :=
    gives_ite (fun _ => (attached_built hg he).orElse
      ((operated_built hg he).orElse (conditional_built hg he))) fun _ => attached_built hg he
  refine hnext.attempt.bind fun r hr => ?_
  cases r with
  | none => exact gives_pure he
  | some e' => exact gives_pure (hr e' rfl)

end Continuations

/-- Only the right operand of an operator is one layer below its expression. -/
theorem expression_built {binary : Bool} :
    (expression g multiline binary).GivesBuilt o given d (k + 6) .expression := by
  refine gives_skip fun start => ?_
  refine (prefixed_built (k := k + 1) hg).bind fun _ he => ?_
  exact gives_repeated (fun _ h => continuation_built hg h) he

/-! ### Parts of statements -/

theorem expectBlock_built : (expectBlock g multiline).GivesBuilt o given d (k + 4) .block := by
  refine (block_built (k := k) hg).found.bind fun r hr => ?_
  cases r with
  | none =>
    exact gives_expected fun herror => gives_skip fun _ =>
      gives_pure (.of_children (.inr herror) .nil)
  | some body => exact gives_pure (hr body rfl)

theorem body_built : (body g multiline).GivesBuilt o given d (k + 5) .statement := by
  have hsingle : (do trivia multiline; g.statement multiline).GivesBuilt o given d (k + 5) .statement :=
    gives_skip fun _ => hg.statement
  refine (block_built (k := k) hg).found.bind fun r hr => ?_
  cases r with
  | some b => exact gives_pure (.of_children trivial (.cons (hr b rfl) .nil))
  | none =>
    refine hsingle.attempt.bind fun r hr => ?_
    cases r with
    | none =>
      refine gives_report rfl fun herror => ?_
      refine gives_skip fun _ => ?_
      exact gives_pure (.of_children herror .nil)
    | some s => exact gives_pure (hr s rfl)

theorem condition_built : (condition g multiline).GivesBuilt o given d (k + 1) .expression := by
  have list : (bracketed (conditionList multiline) fun taken =>
      if taken.isEmpty then g.expression multiline true else fail).Gives (o.Part d) fun r =>
      r.1.Told o ∧ ∀ e ∈ r.2, (Node.expression e).Built o given d (k + 1) :=
    bracketed_gives fun _ => gives_ite (fun _ => hg.expression) fun _ => gives_fail
  refine gives_skip fun _ => list.found.bind fun r hr => ?_
  -- The list holds at most one value, and what is missing is made up for by a placeholder.
  match r, hr with
  | some (_, value :: _), hr => exact gives_pure ((hr _ rfl).2 value List.mem_cons_self)
  | some (_, []), _ => exact gives_reportAt rfl fun herror => gives_pure (missing_built herror _)
  | none, _ =>
    exact gives_expected fun herror => gives_skip fun _ => gives_pure (missing_built herror _)

/-! ### Statements -/

theorem declaration_built {withValues : Bool} {keyword : Token} :
    (declaration g multiline withValues keyword).Gives (o.Part d) fun r =>
      ∀ x ∈ r.2, (Node.declarator x).Built o given d (k + 2) := by
  have hvalue : (declaredValue g multiline).Gives (o.Part d) fun v =>
      ∀ e ∈ v, (Node.expression e).Built o given d (k + 1) := by
    refine gives_skip fun _ => gives_ite (fun _ => ?_) fun _ => gives_pure forall_mem_none
    exact gives_skip fun _ => (expectExpression_built hg).bind fun _ hv => gives_pure (forall_mem_some hv)
  -- In the head of a loop over values no value is read; what follows is the same.
  have hnothing : (pure none : Parser (Option Expression)).Gives (o.Part d) fun v =>
      ∀ e ∈ v, (Node.expression e).Built o given d (k + 1) :=
    gives_pure forall_mem_none
  have hround (ds : List Declarator) (h : ∀ x ∈ ds, (Node.declarator x).Built o given d (k + 2)) :
      (declaratorRound g multiline withValues ds).Gives (o.Part d) (Round.Satisfies
        (fun ds => ∀ x ∈ ds, (Node.declarator x).Built o given d (k + 2))
        fun ds => ∀ x ∈ ds, (Node.declarator x).Built o given d (k + 2)) := by
    refine gives_skip fun _ => gives_skip fun _ => gives_skip fun name => ?_
    cases name with
    | none => exact gives_skip fun _ => gives_pure fun x hx => h x (List.mem_reverse.mp hx)
    | some name =>
      have hadded {span : Span} {value : Option Expression}
          (hv : ∀ e ∈ value, (Node.expression e).Built o given d (k + 1)) :
          ∀ x ∈ Declarator.bind span name value :: ds, (Node.declarator x).Built o given d (k + 2) :=
        List.forall_mem_cons.mpr ⟨.of_children trivial (.option hv), h⟩
      refine gives_ite (fun _ => hvalue.bind fun value hv => ?_) fun _ =>
        hnothing.bind fun value hv => ?_
      all_goals exact gives_skip fun _ => gives_skip fun _ =>
        gives_ite (fun _ => gives_pure (hadded hv)) fun _ =>
        gives_pure fun x hx => hadded hv x (List.mem_reverse.mp hx)
  refine gives_skip fun _ => ?_
  refine (gives_repeated hround (List.forall_mem_nil _)).bind fun _ hd => ?_
  refine gives_skip fun _ => ?_
  exact gives_ite (fun _ => gives_skip fun _ => gives_pure hd) fun _ => gives_pure hd

theorem expectParameters_built :
    (expectParameters g multiline).Gives (o.Part d) fun r =>
      r.1.Told o ∧ ∀ p ∈ r.2, (Node.parameter p).Built o given d (k + 1) := by
  refine (parameters_built (k := k) hg).found.bind fun r hr => ?_
  cases r with
  | none =>
    exact gives_expected fun herror => gives_skip fun _ =>
      gives_pure ⟨.inr herror, List.forall_mem_nil _⟩
  | some list => exact gives_pure (hr list rfl)

theorem functionDeclaration_built :
    (functionDeclaration g multiline).GivesBuilt o given d (k + 6) .statement := by
  have hinner : (inScope do
      let _ ← blanks
      let params ← expectParameters g multiline
      let body ← expectBlock g multiline
      return (params, body)).Gives (o.Part d) fun r =>
        (r.1.1.Told o ∧ ∀ p ∈ r.1.2, (Node.parameter p).Built o given d (k + 5)) ∧
          (Node.block r.2).Built o given d (k + 5) :=
    (gives_skip fun _ => (expectParameters_built hg).bind fun _ hp =>
      (expectBlock_built hg).bind fun _ hb => gives_pure ⟨hp, hb⟩).inScope
  refine gives_skip fun start => gives_skip fun isAsync => gives_skip fun _ => ?_
  refine gives_skip fun _ => gives_skip fun _ => gives_skip fun isGenerator => ?_
  refine gives_skip fun _ => gives_skip fun name => ?_
  cases name with
  | none => exact gives_fail
  | some name =>
    refine hinner.bind fun _ h => ?_
    refine gives_skip fun _ => ?_
    exact gives_pure (.of_children h.1.1 ((AllBuilt.map h.1.2).append (.cons h.2 .nil)))

theorem ifStatement_built : (ifStatement g multiline).GivesBuilt o given d (k + 6) .statement := by
  refine gives_skip fun start => gives_skip fun _ => ?_
  refine (condition_built (k := k + 4) hg).bind fun _ hc => ?_
  refine (body_built (k := k) hg).bind fun _ ht => ?_
  refine gives_skip fun _ => ?_
  refine gives_ite (fun _ => ?_) fun _ => ?_
  · refine (body_built hg (k := k)).bind fun _ hf => ?_
    refine gives_skip fun _ => ?_
    exact gives_pure (.of_children trivial (.cons hc (.cons ht (.cons hf .nil))))
  · exact gives_skip fun _ => gives_pure (.of_children trivial (.cons hc (.cons ht .nil)))

theorem switchStatement_built : (switchStatement g multiline).GivesBuilt o given d (k + 6) .statement := by
  refine gives_skip fun start => gives_skip fun _ => ?_
  refine (condition_built hg (k := k + 4)).bind fun _ hv => ?_
  refine (expectBlock_built hg (k := k + 1)).bind fun _ hb => ?_
  refine gives_skip fun _ => ?_
  exact gives_pure (.of_children trivial (.cons hv (.cons hb .nil)))

omit hg in
theorem labelEnd_built {start : Position} {test : Option Expression}
    (h : ∀ e ∈ test, (Node.expression e).Built o given d k) :
    (labelEnd start test).GivesBuilt o given d (k + 1) .statement := by
  refine gives_skip fun _ => gives_skip fun _ => gives_skip fun _ => ?_
  exact gives_pure (.of_children trivial (.option h))

theorem caseLabel_built : (caseLabel g multiline).GivesBuilt o given d (k + 1) .statement := by
  refine gives_skip fun start => gives_skip fun _ => gives_skip fun _ => ?_
  refine (hg.expression (k := k)).bind fun _ ht => ?_
  exact labelEnd_built (forall_mem_some ht)

theorem whileStatement_built : (whileStatement g multiline).GivesBuilt o given d (k + 6) .statement := by
  refine gives_skip fun start => gives_skip fun _ => ?_
  refine (condition_built hg (k := k + 4)).bind fun _ hc => ?_
  refine (body_built hg (k := k)).bind fun _ hb => ?_
  refine gives_skip fun _ => ?_
  exact gives_pure (.of_children trivial (.cons hc (.cons hb .nil)))

theorem doStatement_built : (doStatement g multiline).GivesBuilt o given d (k + 6) .statement := by
  have htest : (doCondition g multiline).GivesBuilt o given d (k + 5) .expression :=
    gives_skip fun _ => gives_ite (fun _ => condition_built hg) fun _ =>
      gives_expected fun herror => gives_skip fun _ => gives_pure (missing_built herror _)
  refine gives_skip fun start => gives_skip fun _ => ?_
  refine (body_built hg (k := k)).bind fun _ hb => ?_
  refine htest.bind fun _ hc => ?_
  refine gives_skip fun _ => ?_
  exact gives_pure (.of_children trivial (.cons hb (.cons hc .nil)))

/-! ### Loops -/

theorem valuesHead_built :
    (valuesHead g).Gives (o.Part d) fun r =>
      (Node.head r.1).Built o given d (k + 3) ∧ (Node.expression r.2.2).Built o given d (k + 3) := by
  have hbinding : (loopBinding g).GivesBuilt o given d (k + 3) .head := by
    refine gives_skip fun t => ?_
    split
    · refine gives_skip fun head => ?_
      refine (declaration_built hg (k := k)).bind fun _ hd => ?_
      exact gives_pure (.of_children trivial (.map hd))
    · exact hg.expression.bind fun _ he => gives_pure (.of_children trivial (.cons he .nil))
  refine gives_skip fun _ => ?_
  refine hbinding.bind fun _ hh => ?_
  refine gives_skip fun _ => gives_skip fun _ => gives_skip fun _ => ?_
  refine (expectExpression_built hg (k := k + 2)).bind fun _ he => ?_
  refine gives_skip fun _ => gives_skip fun _ => ?_
  exact gives_pure ⟨hh, he⟩

theorem countingStart_built : (countingStart g).GivesBuilt o given d (k + 3) .head := by
  refine gives_skip fun t => ?_
  split
  · refine gives_skip fun _ => (declaration_built (k := k) hg).found.bind fun r hr => ?_
    cases r with
    | none => exact gives_pure (.of_children trivial .nil)
    | some r => exact gives_pure (.of_children trivial (.map (hr r rfl)))
  · refine (hg.expression (k := k + 2)).found.bind fun r hr => ?_
    cases r with
    | none => exact gives_pure (.of_children trivial .nil)
    | some value => exact gives_pure (.of_children trivial (.cons (hr value rfl) .nil))

theorem countingHead_built :
    (countingHead g multiline).Gives (o.Part d) fun r => (Node.head r.1).Built o given d (k + 3) ∧
      (∀ e ∈ r.2.1, (Node.expression e).Built o given d (k + 3)) ∧
      ∀ e ∈ r.2.2, (Node.expression e).Built o given d (k + 3) := by
  refine gives_skip fun _ => ?_
  refine (countingStart_built (k := k) hg).bind fun _ hh => ?_
  refine gives_skip fun _ => gives_skip fun _ => gives_skip fun _ => ?_
  refine (hg.expression (k := k + 3)).found.bind fun _ ht => ?_
  refine gives_skip fun _ => gives_skip fun _ => gives_skip fun _ => ?_
  refine (hg.expression (k := k + 3)).found.bind fun _ hu => ?_
  refine gives_skip fun _ => gives_skip fun closed => ?_
  refine gives_ite (fun _ => gives_skip fun _ => ?_) fun _ => ?_
  all_goals exact gives_pure ⟨hh, ht, hu⟩

theorem countingLoop_built {hasHead : Bool} {start : Position} :
    (countingLoop g multiline hasHead start).GivesBuilt o given d (k + 6) .statement := by
  have hnothing : (pure (.nothing, none, none) :
      Parser (LoopHead × Option Expression × Option Expression)).Gives (o.Part d) fun r =>
        (Node.head r.1).Built o given d (k + 5) ∧
          (∀ e ∈ r.2.1, (Node.expression e).Built o given d (k + 5)) ∧
          ∀ e ∈ r.2.2, (Node.expression e).Built o given d (k + 5) :=
    gives_pure ⟨.of_children trivial .nil, forall_mem_none, forall_mem_none⟩
  refine gives_ite (fun _ => (countingHead_built (k := k + 2) hg).bind fun _ h => ?_) fun _ =>
    hnothing.bind fun _ h => ?_
  all_goals exact (body_built hg).bind fun _ hb => gives_skip fun _ =>
    gives_pure (.of_children trivial (.cons h.1
      (((AllBuilt.option h.2.1).append (.option h.2.2)).append (.cons hb .nil))))

theorem forStatement_built : (forStatement g multiline).GivesBuilt o given d (k + 6) .statement := by
  have hloop (isAwait hasHead : Bool) (start : Position) :
      (loopAfter g multiline isAwait hasHead start).GivesBuilt o given d (k + 6) .statement := by
    -- A head over values has what is bound and the values in it; a head that counts is tried after it.
    have hhead : (do require hasHead; valuesHead g).Gives (o.Part d) fun r =>
        (Node.head r.1).Built o given d (k + 5) ∧ (Node.expression r.2.2).Built o given d (k + 5) :=
      gives_skip fun _ => valuesHead_built hg
    refine hhead.attempt.bind fun r hr => ?_
    cases r with
    | none => exact countingLoop_built hg
    | some r =>
      obtain ⟨hh, he⟩ := hr r rfl
      refine (body_built (k := k) hg).bind fun _ hb => gives_skip fun _ => gives_pure ?_
      split
      all_goals exact .of_children trivial (.cons hh (.cons he (.cons hb .nil)))
  refine Gives.inScope ?_
  refine gives_skip fun isAwait => gives_skip fun _ => gives_skip fun hasHead => ?_
  refine gives_skip fun _ => gives_skip fun _ => gives_skip fun _ => ?_
  exact hloop _ _ _

/-! ### Failures, values and imports -/

theorem tryStatement_built : (tryStatement g multiline).GivesBuilt o given d (k + 6) .statement := by
  have hinner : (inScope do
      let _ ← blanks
      let name ← if ← eats .parenOpen then caughtName else pure none
      let inner ← expectBlock g multiline
      return (name, inner)).Gives (o.Part d) fun r => (Node.block r.2).Built o given d (k + 4) := by
    refine Gives.inScope ?_
    refine gives_skip fun start => gives_skip fun _ => ?_
    refine gives_ite (fun _ => gives_skip fun _ => ?_) fun _ => gives_skip fun _ => ?_
    all_goals exact (expectBlock_built hg).bind fun _ hb => gives_pure hb
  have hhandler : (handler g multiline).Gives (o.Part d) fun cs =>
      ∀ c ∈ cs, (Node.clause c).Built o given d (k + 5) := by
    refine gives_skip fun inner => gives_skip fun caught => ?_
    refine gives_ite (fun _ => ?_) fun _ => gives_pure (List.forall_mem_nil _)
    refine hinner.bind fun _ hb => ?_
    refine gives_skip fun span => ?_
    exact gives_pure (List.forall_mem_singleton.mpr (.of_children trivial (.cons hb .nil)))
  have hfinalizer : (finalizer g multiline).Gives (o.Part d) fun cs =>
      ∀ c ∈ cs, (Node.clause c).Built o given d (k + 5) := by
    refine gives_skip fun _ => gives_skip fun _ => ?_
    refine gives_ite (fun _ => ?_) fun _ => gives_pure (List.forall_mem_nil _)
    refine (expectBlock_built hg (k := k)).bind fun _ hb => ?_
    refine gives_skip fun _ => ?_
    exact gives_pure (List.forall_mem_singleton.mpr (.of_children trivial (.cons hb .nil)))
  refine gives_skip fun _ => gives_skip fun _ => ?_
  refine (expectBlock_built (k := k + 1) hg).bind fun _ hb => ?_
  refine hhandler.bind fun _ hc => ?_
  refine hfinalizer.bind fun _ hf => ?_
  refine gives_skip fun _ => ?_
  refine gives_ite (fun _ => gives_skip fun _ => ?_) fun _ => ?_
  all_goals
    exact gives_pure (.of_children trivial (.cons hb (.map (List.forall_mem_append.mpr ⟨hc, hf⟩))))

theorem returnStatement_built : (returnStatement g multiline).GivesBuilt o given d (k + 1) .statement := by
  have hvalue : (do let _ ← blanks; g.expression multiline true).GivesBuilt o given d k .expression :=
    gives_skip fun _ => hg.expression
  refine gives_skip fun start => gives_skip fun _ => ?_
  refine hvalue.attempt.bind fun _ hv => ?_
  refine gives_skip fun _ => ?_
  exact gives_pure (.of_children trivial (.option hv))

omit hg in
theorem abandonImport_built {start : Position} {m : Message} {arguments : List String}
    (hm : m.severity = .error) : (abandonImport start m arguments).GivesBuilt o given d (k + 1) .statement := by
  refine gives_report hm fun herror => ?_
  refine gives_skip fun _ => gives_skip fun _ => ?_
  exact gives_pure (.of_children herror .nil)

theorem importFrom_built {start : Position} {isIn : Bool} {name : String} :
    (importFrom g start isIn name).GivesBuilt o given d (k + 1) .statement := by
  have hpath : (importPath g).Gives (o.Part d) fun r => r.2 = true ∨ o.HasError := by
    refine gives_skip fun _ => ?_
    refine (quoted_built (k := 0) hg).bind fun _ hq => ?_
    refine gives_skip fun _ => ?_
    exact gives_pure hq.1
  refine gives_skip fun _ => gives_skip fun _ => gives_skip fun _ => ?_
  refine gives_skip fun _ => ?_
  refine gives_ite (fun _ => ?_) fun _ => abandonImport_built rfl
  refine gives_skip fun _ => gives_skip fun _ => ?_
  refine gives_ite (fun _ => ?_) fun _ => abandonImport_built rfl
  refine hpath.bind fun _ htold => gives_skip fun _ => gives_ite (fun _ => ?_) fun hopen => ?_
  · refine gives_ite (fun _ => gives_skip fun _ => ?_) fun _ => ?_
    all_goals exact gives_skip fun _ => gives_pure (.of_children trivial .nil)
  · -- That the path is not closed has been reported by the reader of quoted texts.
    have herror : o.HasError := htold.resolve_left hopen
    exact gives_pure (.of_children herror .nil)

theorem importStatement_built : (importStatement g).GivesBuilt o given d (k + 1) .statement := by
  refine gives_skip fun start => gives_skip fun _ => gives_skip fun _ => ?_
  refine gives_skip fun isIn => gives_skip fun t => ?_
  refine gives_ite (fun _ => gives_skip fun _ => ?_) fun _ => ?_
  all_goals exact gives_ite (fun _ => importFrom_built hg) fun _ => abandonImport_built rfl

/-! ### All statements -/

theorem expressionStatement_built :
    (expressionStatement g multiline).GivesBuilt o given d (k + 1) .statement :=
  hg.expression.bind fun _ he => gives_pure (.of_children trivial (.cons he .nil))

theorem variableStatement_built {t : Token} :
    (variableStatement g multiline t).GivesBuilt o given d (k + 3) .statement := by
  unfold variableStatement
  split
  · exact gives_fail
  · refine gives_skip fun _ => ?_
    refine (declaration_built hg (k := k)).bind fun _ hd => ?_
    exact gives_pure (.of_children trivial (.map hd))

theorem wordStatement_built {t : Token} :
    (wordStatement g multiline t).GivesBuilt o given d (k + 6) .statement := by
  have either : (succeeds functionDeclarationAhead >>= fun ahead =>
      if ahead then functionDeclaration g multiline
      else expressionStatement g multiline).GivesBuilt o given d (k + 6) .statement :=
    gives_skip fun _ => gives_ite (fun _ => functionDeclaration_built hg) fun _ =>
      expressionStatement_built hg
  unfold wordStatement
  split
  -- declarations of variables, then of functions
  iterate 3 exact variableStatement_built hg
  iterate 2 exact either
  -- one statement for each of the other words, and else an expression
  · exact ifStatement_built hg
  · exact switchStatement_built hg
  · exact caseLabel_built hg
  · exact gives_skip fun _ => gives_skip fun _ => labelEnd_built forall_mem_none
  · exact whileStatement_built hg
  · exact doStatement_built hg
  · exact forStatement_built hg
  · exact tryStatement_built hg
  · refine gives_skip fun _ => gives_skip fun _ => gives_skip fun _ => ?_
    refine (expectExpression_built hg (k := k + 4)).bind fun _ he => ?_
    refine gives_skip fun _ => ?_
    exact gives_pure (.of_children trivial (.cons he .nil))
  · exact importStatement_built hg
  iterate 2 exact gives_skip fun _ => gives_pure (.of_children trivial .nil)
  · exact returnStatement_built hg
  · exact gives_skip fun _ => gives_pure (.of_children trivial .nil)
  · exact expressionStatement_built hg

theorem statement_built : (statement g multiline).GivesBuilt o given d (k + 6) .statement := by
  have hbare : (bareStatement g multiline).GivesBuilt o given d (k + 6) .statement := by
    refine gives_skip fun t => ?_
    split
    · exact (block_built hg).bind fun _ hb => gives_pure (.of_children trivial (.cons hb .nil))
    · exact gives_skip fun _ => gives_pure (.of_children trivial .nil)
    · exact wordStatement_built hg
    · exact expressionStatement_built hg
  exact hbare.bind fun _ hs => gives_skip fun _ => gives_pure hs

/-- **What one level adds:** six layers at most. -/
theorem productions_gives {given' : Nat → Node → Prop}
    (h : ∀ d n, n.Built o given d 6 → given' d n) : (productions g).Gives o given' where
  expressions d _ _ _ _ _ hs he := h d _ (expression_built (k := 0) hg hs he)
  operands d _ _ _ _ hs he := h d _ (prefixed_built (k := 1) hg hs he)
  statements d _ _ _ _ hs ht := h d _ (statement_built (k := 0) hg hs ht)

end Productions

/-! ### Levels and the whole story -/

/-- What a guarded reader does at a state depends on the levels that are open there. -/
theorem guarded_apply {α : Type} (inner instead : Parser α) (s : State) :
    guarded inner instead s = (if s.depth < nestingLimit then deeper inner
      else if s.depth = nestingLimit then report .nestingTooDeep [] >>= fun _ => instead
      else instead) s :=
  rfl

/-- A level is opened only if there is one left. What stands in for what is beyond the last level comes with
an error. -/
theorem guarded_gives {α : Type} {φ : α → Prop} {inner instead : Parser α}
    (h : o.level < nestingLimit → inner.Gives (o.deeper.Part d) φ)
    (h' : o.HasError → instead.Gives (o.Part d) φ) : (guarded inner instead).Gives (o.Part d) φ := by
  intro s a s' hs ha
  rw [guarded_apply] at ha
  by_cases hlt : s.depth < nestingLimit
  · rw [if_pos hlt] at ha
    have hlevel : o.level < nestingLimit := hs.depth ▸ hlt
    exact (h hlevel).deeper hlevel hs ha
  · rw [if_neg hlt] at ha
    by_cases heq : s.depth = nestingLimit
    · rw [if_pos heq] at ha
      have reported : (report .nestingTooDeep [] >>= fun _ => instead).Gives (o.Part d) φ :=
        gives_report rfl h'
      exact reported hs ha
    · -- Beyond the limit nothing is said, and a reading that starts at one of the levels is never there.
      rw [if_neg heq] at ha
      have herror : o.HasError := by
        intro hstart
        have hle : s.depth ≤ nestingLimit := hs.depth ▸ hs.limited hstart
        omega
      exact h' herror hs ha

/-- What stands in for what is nested too deep is a placeholder, and comes with an error. -/
theorem levelled_gives (hg : o.level < nestingLimit → g.Gives o.deeper given)
    (hexpression : o.HasError → ∀ d span, given d (.expression (.missing span)))
    (hstatement : o.HasError → ∀ d span, given d (.statement (.missing span))) :
    (levelled g).Gives o given where
  expressions d m b := (guarded_gives (fun hl => (hg hl).expressions d m b) fun herror =>
    gives_skip fun _ => gives_pure (hexpression herror d _)).rewind
  operands d m := guarded_gives (fun hl => (hg hl).operands d m) fun herror =>
    gives_skip fun _ => gives_pure (hexpression herror d _)
  statements d m := (guarded_gives (fun hl => (hg hl).statements d m) fun herror =>
    gives_skip fun _ => gives_pure (hstatement herror d _)).rewind

theorem levelled_sound (hg : o.level < nestingLimit → g.Gives o.deeper fun d n => n.Sound o.deeper d) :
    (levelled g).Gives o fun d n => n.Sound o d :=
  -- A level more or less is no part of an origin.
  levelled_gives hg (fun herror _ _ => Node.every_iff.mpr ⟨herror, List.forall_mem_nil _⟩)
    fun herror _ _ => Node.every_iff.mpr ⟨herror, List.forall_mem_nil _⟩

/-- What is read is sound if there are as many levels to go as can be opened. -/
theorem nested_sound (n : Nat) (h : nestingLimit ≤ o.level + n) :
    (nested n).Gives o fun d n => n.Sound o d := by
  -- With each level that is open there is one less to go, so at the last one none can be opened.
  induction n generalizing o with
  | zero => exact levelled_sound fun hlevel => absurd hlevel (Nat.not_lt.mpr h)
  | succ n ih =>
    have hdeeper : nestingLimit ≤ o.deeper.level + n := by
      change nestingLimit ≤ o.level + 1 + n
      omega
    exact levelled_sound fun _ => productions_gives (ih hdeeper) fun _ _ hn => hn.sound

theorem lines_gives {φ : Line → Prop} (hline : (line outermost).Gives (o.Part d) φ) :
    lines.Gives (o.Part d) fun ls => ∀ l ∈ ls, φ l := by
  have hround (ls : List Line) (h : ∀ l ∈ ls, φ l) : (moduleRound ls).Gives (o.Part d)
      (Round.Satisfies (fun ls => ∀ l ∈ ls, φ l) fun ls => ∀ l ∈ ls, φ l) := by
    unfold moduleRound
    refine gives_skip fun _ => gives_ite (fun _ => ?_) fun _ => ?_
    · exact gives_pure fun l hl => h l (List.mem_reverse.mp hl)
    refine hline.withProgress.bind fun r hr => ?_
    cases r with
    | none => exact gives_pure h
    | some l => exact gives_pure (List.forall_mem_cons.mpr ⟨hr l rfl, h⟩)
  exact gives_repeated hround (List.forall_mem_nil _)

end Grammar

/-- The reading of all lines that are left. -/
def State.reading (s : State) : Reading := ⟨s, (Grammar.lines s).2.reports, s.depth⟩

/-- What is given by the reader of a line holds of the lines of a story. -/
theorem State.forall_mem_lines {φ : Line → Prop} (s : State) (path : String)
    (hline : (line outermost).Gives (s.reading.Part s.blocks) φ) :
    ∀ l ∈ (s.parseModule path).module.lines, φ l := by
  intro l hl
  change l ∈ (Grammar.lines s).1.getD [] at hl
  rcases h : Grammar.lines s with ⟨_ | ls, s'⟩
  · rw [h] at hl
    cases hl
  · rw [h] at hl
    have hreports : s.reading.reports = s'.reports := by rw [State.reading, h]
    have hpart : s.reading.Part s.blocks s s' := ⟨.self s, rfl, id, hreports ▸ List.suffix_rfl⟩
    exact lines_gives hline hpart h l hl

/-- **Every node of a story was read where it stands:** each line, and each quoted text, from a state
that is inside as many blocks of lines as the node is. And wherever something is missing, an error is
reported. -/
theorem State.parseModule_sound (s : State) (path : String) :
    ∀ l ∈ (s.parseModule path).module.lines,
      (Node.line l).Sound ⟨s, (Grammar.lines s).2.reports, s.depth⟩ s.blocks :=
  s.forall_mem_lines path fun _ _ _ hs hl =>
    (line_built (k := 0) (nested_sound nestingLimit (Nat.le_add_left ..)) hs hl).sound

end Story
