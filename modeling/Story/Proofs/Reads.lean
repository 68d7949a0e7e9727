import Story.Proofs.Scopes
import Story.Proofs.Places
import Story.Proofs.Outcomes

/-!
# How the nodes of a tree are read off a text

A parser is a function on states. Here the same is said by a relation that has a rule for each way to put
nodes together and knows nothing of trying, coming back and levels of nesting: `Reads a cs b` says that
the components `cs` are read one after the other on the way from `a` to `b`.

* `Spot` — what of a state a tree depends on: the text that is left, the names that are known, and the
  imports found so far;
* `Component` — what a node is made of, in the order of the text: nodes, lists in brackets, and stretches
  of text that have a place of their own in the tree (an indentation, a declared name, a quoted key);
* `Reads` — the derivations. There is one rule for all nodes: its span is the text that is read for it,
  its components are read in between, and its `scoping` says which names are known before, inside and
  after it. Only imports have a rule of their own, since the values in their paths are not in the tree;
* `Parser.ReadsAs` — whatever a parser reads, it reads by a derivation. The rules for the combinators
  follow the text: `Parser.Follows a cs p` takes up a derivation that has come from `a` over `cs`, and goes
  on with `p`. A parser that is `Quiet` reads tokens and makes nothing of them.
-/

namespace Story

/-! ### Spots -/

/-- What of a state a tree depends on. -/
structure Spot where
  /-- The tokens that are left. -/
  rest : List Token
  /-- Where the text ends. -/
  finish : Position
  /-- The script variables that are known. -/
  locals : List String
  /-- The imports so far, the latest first. -/
  imports : List Import

/-- What of a state a tree depends on. -/
def State.spot (s : State) : Spot := ⟨s.rest, s.finish, s.locals, s.imports⟩

namespace Spot

/-- The first token that has not been read. -/
def current (a : Spot) : Token := a.rest.headD (.endfile a.finish)

/-- Where the current token starts. -/
def position (a : Spot) : Position := a.current.start

/-- Reading on, the second spot is reached from the first. -/
structure Onward (a b : Spot) : Prop where
  rest : b.rest <:+ a.rest
  finish : b.finish = a.finish

theorem Onward.refl (a : Spot) : a.Onward a := ⟨List.suffix_rfl, rfl⟩

theorem Onward.trans {a b c : Spot} (h : a.Onward b) (h' : b.Onward c) : a.Onward c :=
  ⟨h'.rest.trans h.rest, h'.finish.trans h.finish⟩

/-- The current token is one of those that were left, or the end of the file. -/
theorem Onward.current_mem {a b : Spot} (h : a.Onward b) :
    b.current ∈ a.rest ++ [.endfile a.finish] := by
  unfold current
  rcases hr : b.rest with _ | ⟨t, ts⟩
  · rw [h.finish]
    simp
  · have ht : t ∈ a.rest := h.rest.subset (by simp [hr])
    simp [ht]

/-- Tokens are read, and nothing is made of them. -/
structure Passes (a b : Spot) : Prop extends Onward a b where
  locals : b.locals = a.locals
  imports : b.imports = a.imports

theorem Passes.refl (a : Spot) : a.Passes a := ⟨.refl a, rfl, rfl⟩

theorem Passes.trans {a b c : Spot} (h : a.Passes b) (h' : b.Passes c) : a.Passes c where
  toOnward := h.toOnward.trans h'.toOnward
  locals := h'.locals.trans h.locals
  imports := h'.imports.trans h.imports

/-- The same text, with other names known. -/
def knowing (a : Spot) (known : List String) : Spot := { a with locals := known }

theorem Passes.knowing {a b : Spot} (h : a.Passes b) (known : List String) :
    (a.knowing known).Passes (b.knowing known) := { h with locals := rfl }

/-- The closing bracket is read, if there is one, and nothing else is made of the text. -/
def Closes (closing : Option Span) (a d : Spot) : Prop :=
  match closing with
  | none => a.Passes d
  | some span => ∃ c : Spot, a.Passes c ∧ c.Passes d ∧ span = ⟨c.position, d.position⟩

theorem Closes.passes {a d : Spot} {closing : Option Span} (h : a.Closes closing d) : a.Passes d := by
  cases closing with
  | none => exact h
  | some span =>
    obtain ⟨c, hc, hd, -⟩ := h
    exact hc.trans hd

/-! Where a spot stands in the text. -/

/-- **Everything in its place:** what is left leads from here to the end, and no token of it is empty. -/
structure Placed (a : Spot) : Prop where
  path : Token.Path a.position a.rest a.finish
  nonempty : ∀ t ∈ a.rest, t.text ≠ ""

theorem position_eq {a : Spot} {p : Position} (h : Token.Path p a.rest a.finish) : a.position = p := by
  unfold position current
  rcases hr : a.rest with _ | ⟨t, ts⟩
  · rw [hr] at h
    exact h.symm
  · rw [hr] at h
    exact h.1

namespace Placed

variable {a b c d : Spot}

/-- What is read between two spots leads from the first to the second. -/
theorem path_read (h : a.Placed) (h' : a.Onward b) :
    ∃ ts, a.rest = ts ++ b.rest ∧ Token.Path a.position ts b.position ∧
      Token.Path b.position b.rest b.finish := by
  obtain ⟨ts, hts⟩ := h'.rest
  have hpath := h.path
  rw [← hts, ← h'.finish] at hpath
  obtain ⟨m, hm, hrest⟩ := Token.path_append.mp hpath
  rw [← position_eq hrest] at hm hrest
  exact ⟨ts, hts.symm, hm, hrest⟩

theorem onward (h : a.Placed) (h' : a.Onward b) : b.Placed where
  path := (h.path_read h').choose_spec.2.2
  nonempty t ht := h.nonempty t (h'.rest.subset ht)

theorem offset_le (h : a.Placed) (h' : a.Onward b) : a.position.offset ≤ b.position.offset :=
  (h.path_read h').choose_spec.2.1.offset_le

/-- No token is empty, so the place moves on if a token is read. -/
theorem offset_lt (h : a.Placed) (h' : a.Onward b) (hlater : b.rest.length < a.rest.length) :
    a.position.offset < b.position.offset := by
  obtain ⟨ts, hts, hpath, -⟩ := h.path_read h'
  cases ts with
  | nil => exact absurd (congrArg List.length hts).symm (Nat.ne_of_lt hlater)
  | cons t ts =>
    -- At least one token lies between the two places, and it is not empty.
    have htext : t.text ≠ "" := h.nonempty t (hts ▸ List.mem_cons_self)
    have hlt : t.start.offset < t.stop.offset := Token.offset_lt htext
    have hrest : t.stop.offset ≤ b.position.offset := hpath.2.offset_le
    rw [← hpath.1]
    omega

/-- The place is the same only if nothing has been read. -/
theorem eq_of_offset_le (h : a.Placed) (h' : a.Onward b)
    (hle : b.position.offset ≤ a.position.offset) : b.position = a.position := by
  have hlength : b.rest.length = a.rest.length := by
    refine h'.rest.length_le.antisymm (Nat.le_of_not_lt fun hlater => ?_)
    exact absurd (h.offset_lt h' hlater) (Nat.not_lt.mpr hle)
  rw [position, position, current, current, h'.rest.eq_of_length hlength, h'.finish]

end Placed

end Spot

theorem Brackets.span_open (opening : Span) : (Brackets.mk opening none).span = opening := by
  simp [Brackets.span, Span.union]

/-- A closed list covers all from its opening bracket through its closing one. -/
theorem Brackets.span_closed {a b c d : Spot} (ha : a.Placed) (hb : a.Onward b) (hc : b.Onward c)
    (hd : c.Onward d) :
    (Brackets.mk ⟨a.position, b.position⟩ (some ⟨c.position, d.position⟩)).span =
      ⟨a.position, d.position⟩ := by
  have hstart : ¬c.position.offset < a.position.offset :=
    Nat.not_lt.mpr (ha.offset_le (hb.trans hc))
  simp only [Brackets.span, Option.getD_some, Span.union, hstart, ↓reduceIte]
  -- If the closing bracket does not end later, nothing lies between the two, and they are one place.
  split
  · rfl
  · next hle =>
    rw [(ha.onward hb).eq_of_offset_le (hc.trans hd) (Nat.not_lt.mp hle)]

/-! ### Components -/

/-- What a node is made of. -/
inductive Component where
  /-- A node. -/
  | node (n : Node)
  /-- A stretch of text: an indentation or a declared name. -/
  | mark (span : Span)
  /-- A list in brackets. -/
  | list (brackets : Brackets) (items : List Node)
  /-- A stretch of text with nodes in it: a quoted key, or a line without its indentation. -/
  | inner (span : Span) (nodes : List Node)

/-- The nodes of a component. -/
def Component.nodes : Component → List Node
  | .node n => [n]
  | .mark _ => []
  | .list _ items => items
  | .inner _ nodes => nodes

/-- What an expression is made of. -/
def Expression.components : Expression → List Component
  | .array _ brackets elements => [.list brackets (elements.map .expression)]
  | .object _ brackets properties => [.list brackets (properties.map .property)]
  | .call _ callee brackets arguments _ | .new _ callee (some brackets) arguments =>
    [.node (.expression callee), .list brackets (arguments.map .expression)]
  | .function _ _ _ _ brackets parameters body | .arrowBlock _ _ brackets parameters body =>
    [.list brackets (parameters.map .parameter), .node (.block body)]
  | .arrowValue _ _ brackets parameters body =>
    [.list brackets (parameters.map .parameter), .node (.expression body)]
  | e => e.children.map .node

namespace Node

/-- What a node is made of, in the order of the text. -/
def components : Node → List Component
  | .expression e => e.components
  | .property (.quoted _ name _ parts value) => [.inner name (parts.map .part), .node (.expression value)]
  | .block (.code _ brackets statements _) => [.list brackets (statements.map .statement)]
  | .block (.template _ brackets lines) => [.list brackets (lines.map .line)]
  | .statement (.function _ name _ _ brackets parameters body) =>
    [.mark name.span, .list brackets (parameters.map .parameter), .node (.block body)]
  | .declarator (.bind _ name value) =>
    .mark name.span :: (value.toList.map Node.expression).map .node
  | .line (.object _ indent body name proto tags value) =>
    [.mark indent.span,
      .inner body (.key name :: .prototype proto :: (tags.map .tag ++ value.toList.map .expression))]
  | .line (.delete _ indent body name) => [.mark indent.span, .inner body [.key name]]
  | .line (.code _ indent body) => [.mark indent.span, .node (.statement body)]
  | .line (.text _ indent parts) => .mark indent.span :: (parts.map Node.part).map .node
  | .line (.comment _ indent _) => [.mark indent.span]
  | n => n.children.map .node

theorem flatMap_nodes_map (ns : List Node) : (ns.map Component.node).flatMap Component.nodes = ns := by
  induction ns with
  | nil => rfl
  | cons n ns ih => rw [List.map_cons, List.flatMap_cons, ih, Component.nodes, List.singleton_append]

/-- Nothing is left out of the components, and nothing moved. -/
theorem components_nodes (n : Node) : n.components.flatMap Component.nodes = n.children := by
  cases n with
  | expression e =>
    cases e with
    | new _ _ b => cases b <;> simp [components, Expression.components, children, Expression.children,
        Component.nodes, flatMap_nodes_map, -List.map_map]
    | _ => simp [components, Expression.components, children, Expression.children, Component.nodes,
        flatMap_nodes_map, -List.map_map]
  | property p =>
    cases p <;> simp [components, children, Property.children, Component.nodes]
  | statement s =>
    cases s <;> simp [components, children, Statement.children, Component.nodes, flatMap_nodes_map,
      -List.map_map]
  -- The kinds of nodes with few constructors.
  | part x | parameter x | block x | declarator x | head x | clause x | key x | tag x | prototype x
  | line x =>
    cases x <;> simp [components, children, Component.nodes, flatMap_nodes_map, -List.map_map]

/-- The span of a node; only what is not there has none. -/
def span? : Node → Option Span
  | .expression e => some e.span
  | .part (.chunk s _) | .part (.splice s _) => some s
  | .property (.named s _ _) | .property (.numbered s _ _) | .property (.quoted s _ _ _ _)
  | .property (.computed s _ _) | .property (.spread s _) => some s
  | .parameter (.named s _ _ _) => some s
  | .block b => some b.span
  | .statement s => some s.span
  | .declarator (.bind s _ _) => some s
  | .head (.variable s _ _) => some s
  | .head (.expression e) => some e.span
  | .clause (.handler s _ _) | .clause (.finalizer s _) => some s
  | .key (.word s _) | .key (.quoted s _) => some s
  | .tag (.tag s _ _) => some s
  | .prototype (.inherits s _) => some s
  | .line l => some l.span
  | .head .nothing | .prototype .nothing => none

/-- The imports that a node itself is. -/
def records : Node → List Import
  | .statement (.imported i) => [i]
  | _ => []

/-- **How a name is told apart:** with `@` it is used as it stands; without, it is a variable of the
script if it is known as one, or as a global, and otherwise a property of the context. -/
def NamedAt (a : Spot) : Node → Prop
  | .expression (.name _ kind text) =>
    (a.current.kind = .atSign ∧ kind = .raw) ∨
      (a.current.kind = .word ∧ a.current.text = text ∧
        kind = if a.locals.contains text || isGlobalName text then .plain else .context)
  | _ => True

/-- A node that has nothing to do with names. -/
structure IsPlain (n : Node) : Prop where
  scoping : n.scoping = .plain
  records : n.records = []
  named : ∀ a, n.NamedAt a

/-- Whether the node has nothing to do with names. -/
def isPlain : Node → Bool
  | .expression (.name ..) | .statement (.imported _) => false
  | n => n.scoping.isPlain

theorem isPlain_of_isPlain {n : Node} (h : n.isPlain = true) : n.IsPlain := by
  cases n with
  | expression e =>
    cases e with
    | name => cases h
    | _ => exact ⟨Scoping.eq_plain_of_isPlain h, rfl, fun _ => trivial⟩
  | statement x =>
    cases x with
    | imported => cases h
    | _ => exact ⟨Scoping.eq_plain_of_isPlain h, rfl, fun _ => trivial⟩
  | _ => exact ⟨Scoping.eq_plain_of_isPlain h, rfl, fun _ => trivial⟩

/-- Whether the node is an import, or what is left of one that was given up: its path may hold values. -/
def hasPath : Node → Bool
  | .statement (.imported _) | .statement (.missing _) => true
  | _ => false

/-- Nothing in the tree stands below a node that has a path. -/
theorem components_of_hasPath {n : Node} (h : n.hasPath = true) : n.components = [] := by
  cases n with
  | statement x =>
    cases x with
    | imported | missing => rfl
    | _ => cases h
  | _ => cases h

theorem enter_of_hasPath {n : Node} (h : n.hasPath = true) (known : List String) :
    n.scoping.enter known = known := by
  cases n with
  | statement x =>
    cases x with
    | imported | missing => rfl
    | _ => cases h
  | _ => cases h

theorem namedAt_of_hasPath {n : Node} (h : n.hasPath = true) (a : Spot) : n.NamedAt a := by
  cases n with
  | statement => trivial
  | _ => cases h

/-- All that the rule for plain nodes asks for: the span, the components, and whether the node is plain. -/
def frame (n : Node) : Option Span × List Component × Bool := (n.span?, n.components, n.isPlain)

end Node

namespace Spot

/-- Where a node starts, as what is inside sees it. -/
def entering (a : Spot) (n : Node) : Spot := a.knowing (n.scoping.enter a.locals)

/-- Where a node that starts at `a` ends, if what is inside ends at `c`. -/
def leaving (a : Spot) (n : Node) (c : Spot) : Spot :=
  { c with
    locals := n.scoping.leave a.locals c.locals
    imports := n.records ++ c.imports }

theorem entering_plain (a : Spot) {n : Node} (h : n.IsPlain) : a.entering n = a := by
  rw [entering, h.scoping]
  rfl

theorem leaving_plain (a : Spot) {n : Node} (h : n.IsPlain) (c : Spot) : a.leaving n c = c := by
  rw [leaving, h.scoping, h.records]
  rfl

end Spot

/-! ### Derivations -/

/-- **`Reads a cs b`:** on the way from `a` to `b` the components `cs` are read, in this order. -/
inductive Reads : Spot → List Component → Spot → Prop where
  /-- Tokens may be passed over. -/
  | gap {a b : Spot} (h : a.Passes b) : Reads a [] b
  /-- One thing is read after the other. -/
  | append {a b c : Spot} {cs ds : List Component} (h : Reads a cs b) (h' : Reads b ds c) :
      Reads a (cs ++ ds) c
  /-- A stretch of text. -/
  | mark {a b : Spot} (h : a.Passes b) : Reads a [.mark ⟨a.position, b.position⟩] b
  /-- A stretch of text with nodes in it. -/
  | inner {a b : Spot} {ns : List Node} (h : Reads a (ns.map .node) b) :
      Reads a [.inner ⟨a.position, b.position⟩ ns] b
  /-- A list in brackets. -/
  | list {a b c d : Spot} {closing : Option Span} {ns : List Node} (hopen : a.Passes b)
      (h : Reads b (ns.map .node) c) (hclose : c.Closes closing d) :
      Reads a [.list ⟨⟨a.position, b.position⟩, closing⟩ ns] d
  /-- A single item that stands for the list of it. -/
  | lone {a b : Spot} {n : Node} (h : Reads a [.node n] b) :
      Reads a [.list ⟨⟨a.position, b.position⟩, some ⟨a.position, b.position⟩⟩ [n]] b
  /-- A node that is no import. -/
  | node {a c : Spot} {n : Node} (hspan : ∀ span ∈ n.span?, span = ⟨a.position, c.position⟩)
      (hrecords : n.records = []) (hname : n.NamedAt a) (h : Reads (a.entering n) n.components c) :
      Reads a [.node n] (a.leaving n c)
  /-- An import, which binds an identifier. The values in its path come after a word at least; they are
  read and left out. -/
  | path {a b c : Spot} {n : Node} {ns : List Node} (hpath : n.hasPath = true)
      (hbinding : ∀ i ∈ n.records, isIdentifier i.binding = true)
      (hspan : ∀ span ∈ n.span?, span = ⟨a.position, c.position⟩) (hword : a.Passes b)
      (hlater : b.rest.length < a.rest.length) (hvalues : ∀ v ∈ ns, v.isValue = true)
      (h : Reads b (ns.map .node) c) : Reads a [.node n] (a.leaving n c)

namespace Reads

variable {a b c : Spot} {cs : List Component} {n : Node}

theorem refl (a : Spot) : Reads a [] a := .gap (.refl a)

/-- Reading on, no text is left out. -/
theorem onward (h : Reads a cs b) : a.Onward b := by
  induction h with
  | gap h | mark h => exact h.toOnward
  | append _ _ ih ih' => exact ih.trans ih'
  | inner _ ih | lone _ ih => exact ih
  | list hopen _ hclose ih => exact (hopen.toOnward.trans ih).trans hclose.passes.toOnward
  | node _ _ _ _ ih => exact ⟨ih.rest, ih.finish⟩
  | path _ _ _ hword _ _ _ ih => exact ⟨(hword.toOnward.trans ih).rest, (hword.toOnward.trans ih).finish⟩

/-- What is read one after the other can be taken apart. -/
theorem split {ds : List Component} (h : Reads a (cs ++ ds) c) : ∃ b, Reads a cs b ∧ Reads b ds c := by
  -- A component by itself is all on one side; only the rule for sequences cuts a list in two.
  have single {x : Component} {a c : Spot} {cs ds : List Component} (hx : cs ++ ds = [x])
      (h : Reads a [x] c) : ∃ b, Reads a cs b ∧ Reads b ds c := by
    obtain ⟨rfl, rfl⟩ | ⟨rfl, rfl⟩ := List.append_eq_singleton_iff.mp hx
    · exact ⟨a, .refl a, h⟩
    · exact ⟨c, h, .refl c⟩
  generalize hes : cs ++ ds = es at h
  induction h generalizing cs ds with
  | gap h =>
    obtain ⟨rfl, rfl⟩ := List.append_eq_nil_iff.mp hes
    exact ⟨_, .gap h, .refl _⟩
  | append h h' ih ih' =>
    obtain ⟨us, rfl, rfl⟩ | ⟨us, rfl, rfl⟩ := List.append_eq_append_iff.mp hes
    · obtain ⟨m, hm, hm'⟩ := ih rfl
      exact ⟨m, hm, hm'.append h'⟩
    · obtain ⟨m, hm, hm'⟩ := ih' rfl
      exact ⟨m, h.append hm, hm'⟩
  | mark h => exact single hes (.mark h)
  | inner h => exact single hes (.inner h)
  | list hopen h hclose => exact single hes (.list hopen h hclose)
  | lone h => exact single hes (.lone h)
  | node hspan hrecords hname h => exact single hes (.node hspan hrecords hname h)
  | path hpath hbinding hspan hword hlater hvalues h =>
    exact single hes (.path hpath hbinding hspan hword hlater hvalues h)

/-- Where no component is read, tokens are passed over. -/
theorem passes (h : Reads a [] b) : a.Passes b := by
  generalize hcs : ([] : List Component) = cs at h
  induction h with
  | gap h => exact h
  | append _ _ ih ih' =>
    obtain ⟨rfl, rfl⟩ := List.append_eq_nil_iff.mp hcs.symm
    exact (ih rfl).trans (ih' rfl)
  | mark | inner | list | lone | node | path => cases hcs

/-- Pass over tokens after what has been read. -/
theorem pass (h : Reads a cs b) (h' : b.Passes c) : Reads a cs c := by
  rw [← List.append_nil cs]
  exact h.append (.gap h')

/-- Pass over tokens before what is read. -/
theorem after (h' : a.Passes b) (h : Reads b cs c) : Reads a cs c := by
  rw [← List.nil_append cs]
  exact .append (.gap h') h

/-- A node that makes no names known and records nothing. -/
theorem plain (hplain : n.IsPlain) (hspan : ∀ span ∈ n.span?, span = ⟨a.position, c.position⟩)
    (h : Reads a n.components c) : Reads a [.node n] c := by
  rw [← a.leaving_plain hplain c]
  refine .node hspan hplain.records (hplain.named a) ?_
  rwa [a.entering_plain hplain]

/-- A node that is a scope: what becomes known inside is forgotten. -/
theorem scope (hscoping : n.scoping = .scope) (hrecords : n.records = []) (hname : n.NamedAt a)
    (hspan : ∀ span ∈ n.span?, span = ⟨a.position, c.position⟩) (h : Reads a n.components c) :
    Reads a [.node n] (c.knowing a.locals) := by
  have hleaving : a.leaving n c = c.knowing a.locals := by
    rw [Spot.leaving, hscoping, hrecords]
    rfl
  rw [← hleaving]
  refine .node hspan hrecords hname ?_
  rw [Spot.entering, hscoping]
  exact h

/-- A node that covers what is read for it and has nothing to do with names. -/
theorem framed (hframe : n.frame = (some ⟨a.position, c.position⟩, cs, true)) (h : Reads a cs c) :
    Reads a [.node n] c := by
  simp only [Node.frame, Prod.mk.injEq] at hframe
  obtain ⟨hspan, rfl, hplain⟩ := hframe
  refine plain (Node.isPlain_of_isPlain hplain) ?_ h
  intro span hmem
  rw [hspan] at hmem
  exact (Option.mem_some.mp hmem).symm

/-- A node is read from some place to some place, with nothing read before and after it. -/
theorem node_cases (h : Reads a [.node n] c) :
    ∃ b b', Reads a [] b ∧ Reads b [.node n] b' ∧
      (∀ span ∈ n.span?, span = ⟨b.position, b'.position⟩) ∧ Reads b' [] c := by
  -- By induction on the derivation; only its last step can have put the node there.
  generalize hcs : [Component.node n] = cs at h
  induction h with
  -- One of the two parts holds the node, and nothing is read in the other.
  | append h h' ih ih' =>
    obtain ⟨rfl, rfl⟩ | ⟨rfl, rfl⟩ := List.singleton_eq_append_iff.mp hcs
    · obtain ⟨b, b', hb, hn, hspan, hb'⟩ := ih' rfl
      exact ⟨b, b', h.append hb, hn, hspan, hb'⟩
    · obtain ⟨b, b', hb, hn, hspan, hb'⟩ := ih rfl
      exact ⟨b, b', hb, hn, hspan, hb'.append h'⟩
  | node hspan hrecords hname h =>
    cases hcs
    exact ⟨_, _, .refl _, .node hspan hrecords hname h, hspan, .refl _⟩
  | path hpath hbinding hspan hword hlater hvalues h =>
    cases hcs
    exact ⟨_, _, .refl _, .path hpath hbinding hspan hword hlater hvalues h, hspan, .refl _⟩
  | gap | mark | inner | list | lone => cases hcs

/-- A node that is no more than its only component. -/
theorem wrap {m : Node} (hplain : m.IsPlain) (hspan : m.span? = n.span?)
    (hcomponents : m.components = [.node n]) (h : Reads a [.node n] c) : Reads a [.node m] c := by
  obtain ⟨b, b', hb, hn, hplace, hb'⟩ := h.node_cases
  have hm : Reads b [.node m] b' := by
    refine plain hplain ?_ ?_
    · rwa [hspan]
    · rwa [hcomponents]
  exact (hb.append hm).append hb'

end Reads

/-! ### Parsers that make nothing of what they read -/

namespace State

variable {s : State}

theorem passes_of_extends {s' : State} (h : s.Extends s') (hlocals : s'.locals = s.locals)
    (himports : s'.imports = s.imports) : s.spot.Passes s'.spot :=
  ⟨⟨h.rest, h.finish⟩, hlocals, himports⟩

theorem Placed.spot (h : s.Placed) : s.spot.Placed := ⟨h.path, h.nonempty⟩

theorem passes_advance (s : State) : s.spot.Passes s.advance.spot := by
  refine passes_of_extends (extends_advance s) ?_ ?_ <;> unfold advance <;> split <;> rfl

theorem passes_advanceBy (n : Nat) (s : State) : s.spot.Passes (advanceBy n s).spot := by
  induction n generalizing s with
  | zero => exact .refl _
  | succ n ih => exact (passes_advance s).trans (ih s.advance)

theorem passes_skipWhile (p : Token → Bool) (s : State) : s.spot.Passes (s.skipWhile p).spot :=
  passes_of_extends (extends_skipWhile p s) rfl rfl

/-- Apart from the name that becomes known, nothing is made of what leads up to it. -/
theorem passes_declare {a : Spot} (h : a.Passes s.spot) (name : String) :
    (a.knowing (name :: a.locals)).Passes (s.declare name).spot :=
  ⟨⟨h.rest, h.finish⟩, congrArg (name :: ·) h.locals, h.imports⟩

theorem passes_skipComment (s : State) : s.spot.Passes s.skipComment.spot := by
  have h2 := passes_advanceBy 2 s
  unfold skipComment
  dsimp only
  split
  · exact h2.trans (passes_advanceBy _ _)
  · exact h2.trans (passes_advanceBy _ (advanceBy 2 s))

theorem passes_skipTrivia (multiline : Bool) (s : State) :
    s.spot.Passes (s.skipTrivia multiline).spot := by
  fun_induction skipTrivia multiline s with
  | case1 => exact .refl _
  | case2 s _ _ _ _ ih => exact (passes_advance s).trans ih
  | case3 s _ _ _ _ _ _ ih => exact (passes_skipWhile _ s).trans ih
  | case4 s _ _ _ _ _ _ _ ih => exact (passes_skipComment s).trans ih
  | case5 => exact .refl _
  | case6 => exact .refl _

/-- A token covers the text from where it is read to where the next one is. -/
theorem Placed.span_current (hs : s.Placed) : s.current.span = ⟨s.position, s.advance.position⟩ := by
  have hpath := hs.path
  unfold Token.span position advance
  rcases hr : s.rest with _ | ⟨t, ts⟩
  · simp [current, hr, Token.stop, Token.endfile, Position.advance]
  · rw [hr] at hpath
    have hnext : ({ s with rest := ts, cursor := s.cursor + 1 } : State).position = t.stop :=
      position_eq hpath.2
    rw [position] at hnext
    simp only [hnext]
    simp [current, hr]

end State

namespace Parser

variable {α β σ : Type} {p q : Parser α}

/-- A parser that makes nothing of what it reads, whether it fails or not. -/
class Quiet (p : Parser α) : Prop where
  passes {s : State} {r : Option α} {s' : State} : p s = (r, s') → s.spot.Passes s'.spot

/-- If the parser fails, nothing has been made of what it has read. -/
class FailsQuietly (p : Parser α) : Prop where
  passes {s s' : State} : p s = (none, s') → s.spot.Passes s'.spot

section Quiet

theorem quiet_of_eq (h : ∀ s, (p s).2 = s) : Quiet p where
  passes {s r s'} hp := by
    have hs := h s
    rw [hp] at hs
    exact hs ▸ .refl _

instance (a : α) : Quiet (pure a : Parser α) := quiet_of_eq fun _ => rfl

instance : Quiet (fail : Parser α) := quiet_of_eq fun _ => rfl

instance (f : State → α) : Quiet (look f) := quiet_of_eq fun _ => rfl

instance : Quiet state := quiet_of_eq fun _ => rfl

instance (p : Parser α) : Quiet (succeeds p) := quiet_of_eq fun s => by rw [succeeds_run]

instance (condition : Bool) : Quiet (require condition) := by
  cases condition <;> exact quiet_of_eq fun _ => rfl

instance quiet_bind (f : α → Parser β) [Quiet p] [hf : ∀ a, Quiet (f a)] : Quiet (p >>= f) where
  passes {s r s'} h := by
    change bindRun p f s = (r, s') at h
    unfold bindRun at h
    split at h
    · next t hp =>
      cases h
      exact Quiet.passes hp
    · next a t hp => exact (Quiet.passes hp).trans ((hf a).passes h)

instance (c : Prop) [Decidable c] [Quiet p] [Quiet q] : Quiet (if c then p else q) := by
  split <;> infer_instance

instance [Quiet p] : Quiet (rewind p) where
  passes {s r s'} h := by
    change rewindRun p s = (r, s') at h
    rw [rewindRun_eq] at h
    split at h
    · exact Quiet.passes h
    · cases h
      exact .refl _

instance (p : Parser α) : FailsQuietly (rewind p) where
  passes h := (rewind_eq_none.mp h).2 ▸ .refl _

instance [Quiet p] : Quiet (found p) where
  passes h := by
    cases h
    exact Quiet.passes rfl

instance [Quiet p] : Quiet (attempt p) := inferInstanceAs (Quiet (found (rewind p)))

theorem quiet_change {f : Step} (h : ∀ s : State, s.spot.Passes (f.apply s).spot) :
    Quiet (change f) where
  passes hp := by
    cases hp
    exact h _

instance : Quiet (change .advance) := quiet_change State.passes_advance

instance (n : Nat) : Quiet (change (.advanceBy n)) := quiet_change (State.passes_advanceBy n)

instance : Quiet (change .skipBlanks) := quiet_change (State.passes_skipWhile _)

instance : Quiet (change .skipLine) := quiet_change (State.passes_skipWhile _)

instance (multiline : Bool) : Quiet (trivia multiline) :=
  quiet_change (State.passes_skipTrivia multiline)

instance (span : Span) (m : Message) (arguments : List String) : Quiet (reportAt span m arguments) :=
  quiet_change fun s => .refl s.spot

instance (m : Message) (arguments : List String) : Quiet (report m arguments) :=
  quiet_change fun s => .refl s.spot

instance (condition : State → Bool) : Quiet (requireState condition) := by
  unfold requireState; infer_instance

instance : Quiet token := by unfold token; infer_instance

instance (kind : TokenKind) : Quiet (eat kind) := by unfold eat; infer_instance

instance (word : String) : Quiet (eatWord word) := by unfold eatWord; infer_instance

instance (condition : Token → Bool) : Quiet (eatsIf condition) := by unfold eatsIf; infer_instance

instance (kind : TokenKind) : Quiet (eats kind) := by unfold eats; infer_instance

instance (word : String) : Quiet (eatsWord word) := by unfold eatsWord; infer_instance

instance : Quiet blanks := by unfold blanks; infer_instance

instance : Quiet someBlanks := by unfold someBlanks; infer_instance

instance (start : Position) : Quiet (spanFrom start) := by unfold spanFrom; infer_instance

instance (what : String) : Quiet (expected what) := by unfold expected; infer_instance

instance (kind : TokenKind) : Quiet (expect kind) := by unfold expect; infer_instance

end Quiet

/-! ### Reading by derivations -/

variable {f g : α → List Component} {a : Spot} {cs : List Component} {Q : β → State → Prop} {s : State}

/-- Whatever `p` reads from this state, it reads by a derivation. -/
def ReadsAt (p : Parser α) (s : State) (f : α → List Component) : Prop :=
  ∀ ⦃x s'⦄, p s = (some x, s') → Reads s.spot (f x) s'.spot

/-- **Whatever `p` reads, it reads by a derivation** of the components that `f` tells. -/
def ReadsAs (p : Parser α) (f : α → List Component) : Prop := ∀ ⦃s : State⦄, s.Placed → p.ReadsAt s f

/-- After `p`, which takes up a derivation that has come from `a` over `cs`, `Q` holds. -/
def Follows (a : Spot) (cs : List Component) (p : Parser β) (Q : β → State → Prop) : Prop :=
  ∀ ⦃s x s'⦄, s.Placed → Reads a cs s.spot → p s = (some x, s') → Q x s'

theorem Follows.run {p : Parser β} (h : Follows a cs p Q) (hs : s.Placed) (hr : Reads a cs s.spot) {x : β}
    {s' : State} (hx : p s = (some x, s')) : Q x s' :=
  h hs hr hx

/-- `p` completes a derivation from `a` that has come over `cs`. -/
abbrev Completes (a : Spot) (cs : List Component) (p : Parser α) (f : α → List Component) : Prop :=
  Follows a cs p fun x s' => Reads a (f x) s'.spot

/-! Starting a derivation. -/

theorem Completes.readsAt (hs : s.Placed) (h : Completes s.spot [] p f) : p.ReadsAt s f :=
  fun _ _ hp => h hs (.refl _) hp

theorem readsAs_of_completes (h : ∀ a, Completes a [] p f) : p.ReadsAs f :=
  fun s hs => (h s.spot).readsAt hs

theorem readsAs_position {k : Position → Parser α} (h : ∀ a, Completes a [] (k a.position) f) :
    (position >>= k).ReadsAs f :=
  fun s hs _ _ hx => h s.spot hs (.refl _) hx

theorem readsAs_look {k : β → Parser α} {view : State → β} (h : ∀ s, s.Placed → (k (view s)).ReadsAt s f) :
    (look view >>= k).ReadsAs f :=
  h

theorem readsAs_state {k : State → Parser α} (h : ∀ s, s.Placed → (k s).ReadsAt s f) :
    (state >>= k).ReadsAs f :=
  h

/-- A derivation that starts with a token. -/
theorem readsAs_eat {kind : TokenKind} {k : Token → Parser α}
    (h : ∀ a t, t.start = a.position → Completes a [] (k t) f) : (eat kind >>= k).ReadsAs f := by
  intro s hs x s' hx
  obtain ⟨t, u, ht, hk⟩ := bind_eq_some.mp hx
  have hu : u.Placed := hs.extended (extends_of_eq ht)
  have hpass : s.spot.Passes u.spot := Quiet.passes ht
  obtain ⟨-, rfl, -⟩ := eat_eq_some.mp ht
  exact h s.spot s.current rfl hu (.gap hpass) hk

theorem readsAt_state {k : State → Parser α} (h : (k s).ReadsAt s f) : (state >>= k).ReadsAt s f := h

theorem readsAt_require {condition : Bool} {k : Unit → Parser α}
    (h : condition = true → (k ()).ReadsAt s f) : (require condition >>= k).ReadsAt s f := by
  intro x s' hx
  obtain ⟨_, t, hreq, hk⟩ := bind_eq_some.mp hx
  obtain ⟨hc, rfl⟩ := require_eq_some.mp hreq
  exact h hc hk

/-! Going on with one. -/

/-- A derivation inside another one that starts here. -/
theorem follows_position {k : Position → Parser β}
    (h : ∀ b, Reads a cs b → Follows b [] (k b.position) Q) : Follows a cs (position >>= k) Q :=
  fun s _ _ hs hr hy => h s.spot hr hs (.refl _) hy

/-- A derivation inside another one that starts with a word. -/
theorem follows_eatWord {word : String} {k : Token → Parser β}
    (h : ∀ b t, Reads a cs b → t.start = b.position → Follows b [] (k t) Q) :
    Follows a cs (eatWord word >>= k) Q := by
  intro s y s' hs hr hy
  obtain ⟨t, u, ht, hk⟩ := bind_eq_some.mp hy
  have hu : u.Placed := hs.extended (extends_of_eq ht)
  have hpass : s.spot.Passes u.spot := Quiet.passes ht
  obtain ⟨-, rfl, -⟩ := eatWord_eq_some.mp ht
  exact h s.spot s.current hr rfl hu (.gap hpass) hk

theorem follows_pure {x : β} (h : ∀ s, s.Placed → Reads a cs s.spot → Q x s) : Follows a cs (pure x) Q := by
  intro s y s' hs hr hy
  cases hy
  exact h s hs hr

theorem follows_fail : Follows a cs fail Q := by
  intro s y s' hs hr hy
  cases hy

/-- Pass over what no node is made of, though something is known of it. -/
theorem follows_skip_of [Quiet p] {P : α → Prop} {k : α → Parser β}
    (hP : ∀ ⦃s x t⦄, p s = (some x, t) → P x) (h : ∀ x, P x → Follows a cs (k x) Q) :
    Follows a cs (p >>= k) Q := by
  intro s y s' hs hr hy
  obtain ⟨x, t, hx, hk⟩ := bind_eq_some.mp hy
  exact h x (hP hx) (hs.extended (extends_of_eq hx)) (hr.pass (Quiet.passes hx)) hk

/-- Pass over what is made nothing of. -/
theorem follows_skip [Quiet p] {k : α → Parser β} (h : ∀ x, Follows a cs (k x) Q) :
    Follows a cs (p >>= k) Q :=
  follows_skip_of (P := fun _ => True) (fun _ _ _ _ => trivial) fun x _ => h x

/-- A stretch of text with nodes in it ends here. -/
theorem follows_inner {b : Spot} (n : List Node) {ds : List Component} {k : Span → Parser β}
    (hb : Reads a cs b) (hn : ds = n.map .node)
    (h : ∀ span, Follows a (cs ++ [.inner span n]) (k span) Q) :
    Follows b ds (spanFrom b.position >>= k) Q := by
  intro s y s' hs hr hy
  rw [hn] at hr
  exact h _ hs (hb.append hr.inner) hy

/-- Read a component. -/
theorem ReadsAs.follows {k : α → Parser β} (hp : p.ReadsAs f) (h : ∀ x, Follows a (cs ++ f x) (k x) Q) :
    Follows a cs (p >>= k) Q := by
  intro s y s' hs hr hy
  obtain ⟨x, t, hx, hk⟩ := bind_eq_some.mp hy
  exact h x (hs.extended (extends_of_eq hx)) (hr.append (hp hs hx)) hk

theorem follows_ite {c : Prop} [Decidable c] {p q : Parser β} (hp : c → Follows a cs p Q)
    (hq : ¬c → Follows a cs q Q) : Follows a cs (if c then p else q) Q := by
  split
  · next h => exact hp h
  · next h => exact hq h

/-- Read a component, if it is there. -/
theorem ReadsAs.follows_found [FailsQuietly p] {k : Option α → Parser β} (hp : p.ReadsAs f)
    (hsome : ∀ x, Follows a (cs ++ f x) (k (some x)) Q) (hnone : Follows a cs (k none) Q) :
    Follows a cs (found p >>= k) Q := by
  intro s y s' hs hr hy
  obtain ⟨r, t, hx, hk⟩ := bind_eq_some.mp hy
  have hx := found_eq_some.mp hx
  have ht : t.Placed := hs.extended (extends_of_eq hx)
  cases r with
  | none => exact hnone ht (hr.pass (FailsQuietly.passes hx)) hk
  | some x => exact hsome x ht (hr.append (hp hs hx)) hk

theorem ReadsAs.rewind (hp : p.ReadsAs f) : (rewind p).ReadsAs f :=
  fun _ hs _ _ hx => hp hs (rewind_eq_some.mp hx)

theorem ReadsAs.follows_attempt {k : Option α → Parser β} (hp : p.ReadsAs f)
    (hsome : ∀ x, Follows a (cs ++ f x) (k (some x)) Q) (hnone : Follows a cs (k none) Q) :
    Follows a cs (attempt p >>= k) Q :=
  hp.rewind.follows_found hsome hnone

/-- Go on with the same derivation, if that is possible. -/
theorem Completes.follows_attempt {k : Option α → Parser β} (hp : Completes a cs p f)
    (hsome : ∀ x, Follows a (f x) (k (some x)) Q) (hnone : Follows a cs (k none) Q) :
    Follows a cs (attempt p >>= k) Q := by
  intro s y s' hs hr hy
  obtain ⟨r, t, hattempt, hk⟩ := bind_eq_some.mp hy
  obtain ⟨x, rfl, hx⟩ | ⟨rfl, -, rfl⟩ := attempt_eq_some.mp hattempt
  · exact hsome x (hs.extended (extends_of_eq hx)) (hp hs hr hx) hk
  · exact hnone hs hr hk

theorem Follows.orElse {p q : Parser β} (hp : Follows a cs p Q) (hq : Follows a cs q Q) :
    Follows a cs (p <|> q) Q := by
  intro s y s' hs hr hy
  obtain h | ⟨-, h⟩ := orElse_eq_some.mp hy
  · exact hp hs hr h
  · exact hq hs hr h

/-! Whole readers. -/

theorem ReadsAt.orElse (hp : p.ReadsAt s f) (hq : q.ReadsAt s f) : (p <|> q).ReadsAt s f := by
  intro x s' hx
  obtain h | ⟨-, h⟩ := orElse_eq_some.mp hx
  · exact hp h
  · exact hq h

theorem ReadsAs.orElse (hp : p.ReadsAs f) (hq : q.ReadsAs f) : (p <|> q).ReadsAs f :=
  fun _ hs => (hp hs).orElse (hq hs)

theorem ReadsAs.deeper (hp : p.ReadsAs f) : (deeper p).ReadsAs f := by
  intro s hs x s' hx
  obtain ⟨t, ht, rfl⟩ := deeper_eq_some.mp hx
  have hdeeper : ({ s with depth := s.depth + 1 } : State).Placed := { hs with }
  have hreads := hp hdeeper ht
  exact hreads

theorem readsAs_fail : (fail : Parser α).ReadsAs f := by
  intro s hs x s' hx
  cases hx

theorem readsAs_skip [Quiet p] {k : α → Parser β} {f : β → List Component} (h : ∀ x, (k x).ReadsAs f) :
    (p >>= k).ReadsAs f := by
  intro s hs y s' hy
  obtain ⟨x, t, hx, hk⟩ := bind_eq_some.mp hy
  exact .after (Quiet.passes hx) (h x (hs.extended (extends_of_eq hx)) hk)

theorem readsAs_ite {c : Prop} [Decidable c] (hp : c → p.ReadsAs f) (hq : ¬c → q.ReadsAs f) :
    (if c then p else q).ReadsAs f := by
  split
  · next h => exact hp h
  · next h => exact hq h

/-- What is read last, and given as it is. -/
theorem ReadsAs.map {k : α → β} {f' : β → List Component} (hp : p.ReadsAs f)
    (h : ∀ (a b : Spot) x, Reads a (f x) b → Reads a (f' (k x)) b) :
    (p >>= fun x => pure (k x)).ReadsAs f' := by
  intro s hs y s' hy
  obtain ⟨x, t, hx, hk⟩ := bind_eq_some.mp hy
  cases hk
  exact h _ _ x (hp hs hx)

/-! Nodes. -/

/-- What `p` reads is one node. -/
abbrev ReadsNode (p : Parser α) (F : α → Node) : Prop := p.ReadsAs fun x => [.node (F x)]

/-- The end of a node: its span is what has been read for it. -/
theorem completes_node {K : Span → α} {F : α → Node}
    (hframe : (fun span => (F (K span)).frame) = fun span => (some span, cs, true)) :
    Completes a cs (spanFrom a.position >>= fun span => pure (K span)) fun x => [.node (F x)] := by
  intro s x s' hs hr hx
  cases hx
  exact .framed (congrFun hframe _) hr

/-- The end of a node, and tokens after it that are not part of it. -/
theorem completes_node_skip {q : Parser β} [Quiet q] {K : Span → α} {F : α → Node}
    (hframe : (fun span => (F (K span)).frame) = fun span => (some span, cs, true)) :
    Completes a cs (spanFrom a.position >>= fun span => q >>= fun _ => pure (K span))
      fun x => [.node (F x)] := by
  intro s x s' hs hr hx
  obtain ⟨span, _, ⟨⟩, hx⟩ := bind_eq_some.mp hx
  obtain ⟨_, t, hq, ⟨⟩⟩ := bind_eq_some.mp hx
  exact (Reads.framed (congrFun hframe _) hr).pass (Quiet.passes hq)

/-- A node that is a single token. -/
theorem readsAt_token (hs : s.Placed) {x : α} {F : α → Node}
    (hframe : (F x).frame = (some s.current.span, [], true)) :
    (change .advance >>= fun _ => pure x).ReadsAt s fun x => [.node (F x)] := by
  intro y s' hy
  cases hy
  rw [hs.span_current] at hframe
  exact .framed hframe (.gap (State.passes_advance s))

/-! Repetition. -/

/-- A loop keeps what its rounds keep. -/
theorem repeated_induction {body : σ → Parser (Round σ α)} {I : σ → State → Prop} {P : α → State → Prop}
    (hagain : ∀ x s y s', s.Placed → I x s → body x s = (some (.again y), s') → I y s')
    (hdone : ∀ x s r s', s.Placed → I x s → body x s = (some (.done r), s') → P r s')
    {x : σ} {s : State} {r : α} {s' : State} (hs : s.Placed) (hx : I x s)
    (hr : repeated body x s = (some r, s')) : P r s' := by
  change loop body x s = _ at hr
  fun_induction loop body x s with
  | case1 => cases hr
  | case2 x s result t ht =>
    cases hr
    exact hdone x s r s' hs hx ht
  | case3 x s next t ht _ ih =>
    exact ih (hs.extended (extends_of_eq ht)) (hagain x s next t hs hx ht) hr
  | case4 => cases hr

/-- What a round of a loop comes to: the next round has more components, or the loop is done. -/
def Round.Post (a : Spot) (I : σ → List Component) (Q : β → State → Prop) : Round σ β → State → Prop
  | .again y, s' => Reads a (I y) s'.spot
  | .done r, s' => Q r s'

theorem follows_repeated {body : σ → Parser (Round σ β)} {I : σ → List Component}
    (h : ∀ x, Follows a (I x) (body x) (Round.Post a I Q)) {x : σ} (hx : I x = cs) :
    Follows a cs (repeated body x) Q := by
  intro s r s' hs hr hrun
  refine repeated_induction (I := fun x s => Reads a (I x) s.spot) ?_ ?_ hs (hx ▸ hr) hrun
  · exact fun x s y s' hs hr hy => h x hs hr hy
  · exact fun x s r s' hs hr hy => h x hs hr hy

end Parser

end Story
