import Story.Proofs.Productions
import Story.Proofs.Lines

/-!
# Statements are read by derivations

The other half of the way through the grammar: declarations, control, loops, imports. With it all levels
of nesting read by derivations (`Grammar.nested_derives`), and so a whole story is (`parseModule_reads`).
-/

namespace Story

open Story.Parser

namespace Grammar

variable {α : Type} {g : Nested} {multiline : Bool} {a b : Spot} {s s' : State}

/-! ### Parts of statements -/

instance (word : String) : Quiet (goesOn word multiline) := by unfold goesOn; infer_instance

instance : Quiet ofOrIn := by unfold ofOrIn; infer_instance

section Parts

variable (hg : g.Derives)
include hg

theorem expectBlock_reads : (expectBlock g multiline).ReadsNode .block := by
  refine readsAs_of_completes fun a => (block_reads hg).follows_found (fun body => ?_) ?_
  · exact follows_pure fun _ _ hr => hr
  · -- An empty block of no text stands in for the one that is missing.
    refine follows_skip fun _ => ?_
    intro s b s' hs hr h
    cases h
    have hlist : Reads s.spot [.list ⟨s.here, none⟩ []] s.spot := .list (.refl _) (.refl _) (.refl _)
    refine hr.append (.scope (c := s.spot) rfl rfl trivial ?_ hlist)
    rintro span ⟨⟩
    rfl

theorem body_reads : (body g multiline).ReadsNode .statement := by
  have hinner : (do
      trivia multiline
      g.statement multiline).ReadsNode .statement := readsAs_skip fun _ => hg.statement multiline
  refine readsAs_of_completes fun a => (block_reads_statement hg).follows_found (fun body => ?_) ?_
  · exact follows_pure fun _ _ hr => hr
  · refine hinner.follows_attempt (fun statement => ?_) (follows_skip fun _ => ?_)
    · exact follows_pure fun _ _ hr => hr
    · intro s x s' hs hr h
      cases h
      exact hr.append (reads_missing_statement s)

omit hg in
/-- A condition that is missing covers the brackets around it. -/
theorem reads_missing_list {brackets : Brackets} {c d : Spot} (hs : s.Placed)
    (hopening : brackets.opening = ⟨s.position, s.advance.position⟩) (hitems : Reads s.advance.spot [] c)
    (hclose : c.Closes brackets.closing d) :
    Reads s.spot [.node (.expression (.missing brackets.span))] d := by
  have hadvance := State.passes_advance s
  obtain ⟨opening, closing⟩ := brackets
  obtain rfl : opening = _ := hopening
  -- An open list covers its opening bracket, a closed one all up to the closing bracket.
  cases closing with
  | none =>
    rw [Brackets.span_open]
    have hnode : Reads s.spot [.node (.expression (.missing ⟨s.position, s.advance.position⟩))]
        s.advance.spot := .framed rfl (.gap hadvance)
    exact (hnode.append hitems).pass hclose
  | some span =>
    obtain ⟨m, hm, hd, rfl⟩ := hclose
    have hspan : (Brackets.mk ⟨s.position, s.advance.position⟩ (some ⟨m.position, d.position⟩)).span =
        ⟨s.position, d.position⟩ :=
      Brackets.span_closed hs.spot hadvance.toOnward (hitems.onward.trans hm.toOnward) hd.toOnward
    rw [hspan]
    exact .framed rfl (((Reads.after hadvance hitems).pass hm).pass hd)

omit hg in
/-- Of a condition at most one value is read. -/
theorem condition_items {brackets : Brackets} {values : List Expression}
    (h : bracketed (conditionList multiline) (fun taken =>
      if taken.isEmpty then g.expression multiline true else fail) s = (some (brackets, values), s')) :
    values.length ≤ 1 := by
  let few : Round (ListProgress Expression) (List Expression × Option Span) → Prop :=
    Round.Satisfies (fun p => p.items.length ≤ 1) fun r => r.1.length ≤ 1
  have hitem (p : ListProgress Expression) (hp : p.items.length ≤ 1) :
      (listItem (conditionList multiline) (fun taken =>
        if taken.isEmpty then g.expression multiline true else fail) p).Gives State.Anyhow few := by
    unfold listItem
    refine gives_skip fun _ => ?_
    -- An item is read only while there is none.
    have hempty : (attempt (if p.items.isEmpty then g.expression multiline true else fail)).Gives
        State.Anyhow fun r => ∀ x ∈ r, p.items = [] :=
      Gives.attempt (gives_ite (fun h _ _ _ _ _ => List.isEmpty_iff.mp h) fun _ => gives_fail)
    refine hempty.bind fun r hr => ?_
    cases r with
    | none => exact gives_skip fun _ => gives_skip fun _ => gives_pure hp
    | some value =>
      have hone : (value :: p.items).length ≤ 1 := by simp [hr value rfl]
      exact gives_skip fun _ => gives_ite (fun _ => gives_skip fun _ => gives_pure hone) fun _ =>
        gives_pure hone
  have hround (p : ListProgress Expression) (hp : p.items.length ≤ 1) :
      (listRound (conditionList multiline) (fun taken =>
        if taken.isEmpty then g.expression multiline true else fail) p).Gives State.Anyhow few := by
    have hdone : p.items.reverse.length ≤ 1 := by rwa [List.length_reverse]
    unfold listRound
    refine gives_skip fun _ => gives_skip fun s => ?_
    refine gives_ite (fun _ => ?_) fun _ => gives_ite (fun _ => ?_) fun _ => hitem p hp
    · exact gives_skip fun _ => gives_pure hdone
    · exact gives_skip fun _ => gives_pure hdone
  have hloop : (repeated (listRound (conditionList multiline) fun taken =>
      if taken.isEmpty then g.expression multiline true else fail) ⟨[], false⟩).Gives State.Anyhow
        fun r => r.1.length ≤ 1 :=
    gives_repeated hround (Nat.zero_le 1)
  have hlist : (bracketed (conditionList multiline) fun taken =>
      if taken.isEmpty then g.expression multiline true else fail).Gives State.Anyhow fun r =>
        r.2.length ≤ 1 :=
    gives_skip fun _ => hloop.bind fun _ hr => gives_pure hr
  exact hlist trivial h

theorem condition_reads : (condition g multiline).ReadsNode .expression := by
  have hitem (taken : List Expression) :
      (if taken.isEmpty then g.expression multiline true else fail).ReadsNode .expression :=
    readsAs_ite (fun _ => hg.expression multiline true) fun _ => readsAs_fail
  refine readsAs_skip fun _ => ?_
  intro s hs e s' h
  obtain ⟨list, t, hlist, h⟩ := bind_eq_some.mp h
  have hlist := found_eq_some.mp hlist
  have ht : t.Placed := hs.extended (extends_of_eq hlist)
  -- No brackets, nothing between them, or a condition.
  obtain _ | ⟨brackets, _ | ⟨_, values⟩⟩ := list
  · have hpass : s.spot.Passes t.spot := FailsQuietly.passes hlist
    cases h
    exact .after hpass (reads_missing t)
  · cases h
    obtain ⟨hopening, c, hitems, hclose⟩ := bracketed_read hitem hs hlist
    exact reads_missing_list hs hopening hitems hclose
  · cases h
    obtain ⟨-, c, hitems, hclose⟩ := bracketed_read hitem hs hlist
    -- A second value is never read.
    obtain rfl : values = [] := List.length_eq_zero_iff.mp (by simpa using condition_items hlist)
    have hvalue : Reads s.advance.spot [.node (.expression e)] c := hitems
    exact .after (State.passes_advance s) (hvalue.pass hclose.passes)

end Parts

/-! ### Declarations -/

/-- A declared name covers what is read for it, and is known from there on if it has `@`. -/
theorem binding_passes {name : Binding} (hs : s.Placed) (h : binding s = (some (some name), s')) :
    (s.spot.knowing (name.variableNames ++ s.locals)).Passes s'.spot ∧
      name.span = ⟨s.position, s'.position⟩ := by
  obtain ⟨isRaw, t, hraw, h⟩ := bind_eq_some.mp (show (eats .atSign >>= _) s = _ from h)
  have hpass : s.spot.Passes t.advance.spot :=
    (Quiet.passes hraw).trans (State.passes_advance t)
  have ht : t.Placed := hs.extended (extends_of_eq hraw)
  have hstop : t.current.stop = t.advance.position := congrArg Span.stop ht.span_current
  rw [look_bind_run] at h
  -- A word that is a name; with `@` before it, it becomes known.
  split at h
  · rw [change_bind_run] at h
    split at h
    · cases isRaw with
      | true =>
        cases h
        exact ⟨State.passes_declare hpass _, congrArg (Span.mk _) hstop⟩
      | false =>
        cases h
        exact ⟨hpass, congrArg (Span.mk _) hstop⟩
    · cases h
  · cases h

/-- No name becomes known if there is none. -/
theorem binding_none (h : binding s = (some none, s')) : s.spot.Passes s'.spot := by
  obtain ⟨isRaw, t, hraw, h⟩ := bind_eq_some.mp (show (eats .atSign >>= _) s = _ from h)
  have hpass : s.spot.Passes t.spot := Quiet.passes hraw
  rw [look_bind_run] at h
  split at h
  · rw [change_bind_run] at h
    split at h
    · cases isRaw <;> cases h
    · cases h
      exact hpass.trans (State.passes_advance t)
  · cases h
    exact hpass

/-- The declarators so far, the latest first. -/
def declaratorComponents (declarators : List Declarator) : List Component :=
  (declarators.reverse.map Node.declarator).map .node

section Declarations

variable (hg : g.Derives)
include hg

theorem declaredValue_reads : (declaredValue g multiline).ReadsAs valueComponents := by
  refine readsAs_of_completes fun a => follows_skip fun equals => follows_ite (fun _ => ?_) fun _ => ?_
  · refine follows_skip fun _ => ?_
    refine (expectExpression_reads hg).follows fun value => ?_
    exact follows_pure fun _ _ hr => hr
  · exact follows_pure fun _ _ hr => hr

/-- A declarator after its name, which is known to its value. -/
theorem declarator_follows {withValues : Bool} {cs : List Component} {Q : α → State → Prop}
    {k : Declarator → Parser α} (hb : Reads a cs b)
    (h : ∀ d, Follows a (cs ++ [.node (.declarator d)]) (k d) Q) (name : Binding) :
    Follows (b.knowing (name.variableNames ++ b.locals)) [.mark name.span] (do
      let value ← if withValues then declaredValue g multiline else pure none
      let span ← spanFrom b.position
      k (.bind span name value)) Q := by
  -- The declarator starts where its name does, and ends where its value does or where the name does.
  have hend (value : Option Expression) :
      Follows (b.knowing (name.variableNames ++ b.locals)) (.mark name.span :: valueComponents value)
        (spanFrom b.position >>= fun span => k (.bind span name value)) Q := by
    intro s x s' hs hr hx
    refine h (.bind ⟨b.position, s.position⟩ name value) hs (hb.append ?_) hx
    refine .node (c := s.spot) ?_ rfl trivial hr
    rintro span ⟨⟩
    rfl
  cases withValues with
  | true => exact (declaredValue_reads hg).follows fun value => hend value
  | false => exact hend none

theorem declaratorRound_follows {withValues : Bool} (declarators : List Declarator) :
    Follows a (declaratorComponents declarators) (declaratorRound g multiline withValues declarators)
      (Round.Post a declaratorComponents fun r s' => Reads a ((r.map Node.declarator).map .node) s'.spot) := by
  refine follows_skip fun _ => ?_
  intro s r s' hs hr h
  -- The name is read first, or its absence is reported.
  obtain ⟨name, t, hname, h⟩ := bind_eq_some.mp (show (binding >>= _) s = _ from h)
  cases name with
  | none =>
    have hpass : s.spot.Passes t.spot := binding_none hname
    cases h
    exact hr.pass hpass
  | some name =>
    have ht : t.Placed := hs.extended (extends_of_eq hname)
    obtain ⟨hpass, hspan⟩ := binding_passes hs hname
    have hmark : Reads (s.spot.knowing (name.variableNames ++ s.locals)) [.mark name.span] t.spot := by
      rw [hspan]
      exact .mark hpass
    have hnext (d : Declarator) : Follows a (declaratorComponents declarators ++ [.node (.declarator d)])
        (do
          if ← eatsAhead .comma multiline then return .again (d :: declarators)
          else return .done (d :: declarators).reverse)
        (Round.Post a declaratorComponents fun r s' =>
          Reads a ((r.map Node.declarator).map .node) s'.spot) := by
      -- The list is kept in reverse, so the new declarator is its first.
      have hadded : declaratorComponents declarators ++ [.node (.declarator d)] =
          declaratorComponents (d :: declarators) := by simp [declaratorComponents]
      rw [hadded]
      exact follows_skip fun _ => follows_ite (fun _ => follows_pure fun _ _ h => h)
        fun _ => follows_pure fun _ _ h => h
    exact declarator_follows hg hr hnext name ht hmark h

/-- What a declaration of variables covers, and its declarators. -/
theorem declaration_follows {withValues : Bool} {keyword : Token} :
    Follows a [] (declaration g multiline withValues keyword) fun r s' =>
      r.1 = ⟨keyword.start, s'.position⟩ ∧ Reads a ((r.2.map Node.declarator).map .node) s'.spot := by
  refine follows_skip fun _ => ?_
  intro s r s' hs hr h
  obtain ⟨declarators, t, hloop, h⟩ := bind_eq_some.mp h
  have hreads : Reads a ((declarators.map Node.declarator).map .node) t.spot :=
    follows_repeated (declaratorRound_follows hg) (x := []) rfl hs hr hloop
  obtain ⟨span, _, ⟨⟩, h⟩ := bind_eq_some.mp h
  split at h <;> cases h <;> exact ⟨rfl, hreads⟩

/-- A node that is a declaration of variables. -/
theorem declaration_node {withValues : Bool} {span : Span} {declarators : List Declarator} {n : Node}
    (hs : s.Placed)
    (h : declaration g multiline withValues s.current s.advance = (some (span, declarators), s'))
    (hframe : n.frame = (some span, (declarators.map Node.declarator).map .node, true)) :
    Reads s.spot [.node n] s'.spot := by
  have hadvance : s.advance.Placed := hs.extended (State.extends_advance s)
  obtain ⟨rfl, hreads⟩ := declaration_follows (a := s.spot) hg hadvance (.gap (State.passes_advance s)) h
  exact .framed hframe hreads

omit hg in
instance {withValues : Bool} {keyword : Token} :
    FailsQuietly (declaration g multiline withValues keyword) := by
  have hbinding : Total binding := by unfold binding; infer_instance
  have hahead (kind : TokenKind) : Total (eatsAhead kind multiline) := by
    unfold eatsAhead; infer_instance
  have hmissing : Total missingHere := by unfold missingHere; infer_instance
  have hexpression : Total (expectExpression g multiline) := by
    refine Total.bind inferInstance fun r => ?_
    cases r <;> infer_instance
  have hvalue : Total (declaredValue g multiline) := by unfold declaredValue; infer_instance
  have hround (declarators : List Declarator) :
      Total (declaratorRound g multiline withValues declarators) := by
    refine Total.bind inferInstance fun _ => Total.bind inferInstance fun _ =>
      Total.bind hbinding fun name => ?_
    cases name <;> dsimp only <;> infer_instance
  have hloop := Total.repeated (declaratorRound_advances (g := g) multiline withValues) []
  unfold declaration
  infer_instance

end Declarations

section Control

variable (hg : g.Derives)
include hg

theorem expectParameters_reads :
    (expectParameters g multiline).ReadsAs fun r => [.list r.1 (r.2.map .parameter)] := by
  have hquiet : FailsQuietly (parameters g multiline) := by unfold parameters; infer_instance
  refine readsAs_of_completes fun a => (parameters_reads hg).follows_found (fun list => ?_) ?_
  · exact follows_pure fun _ _ hr => hr
  · refine follows_skip fun _ => ?_
    intro s r s' hs hr h
    cases h
    exact hr.append (.list (.refl _) (.refl _) (.refl _))

theorem functionDeclaration_reads : (functionDeclaration g multiline).ReadsNode .statement := by
  intro s hs x s' h
  obtain ⟨isAsync, s₁, h₁, h⟩ := bind_eq_some.mp (show (eatsWord "async" >>= _) s = _ from h)
  obtain ⟨_, s₂, h₂, h⟩ := bind_eq_some.mp h
  obtain ⟨_, s₃, h₃, h⟩ := bind_eq_some.mp h
  obtain ⟨_, s₄, h₄, h⟩ := bind_eq_some.mp h
  obtain ⟨isGenerator, s₅, h₅, h⟩ := bind_eq_some.mp h
  obtain ⟨_, t, h₆, h⟩ := bind_eq_some.mp h
  have hpass : s.spot.Passes t.spot := (Quiet.passes h₁).trans <| (Quiet.passes h₂).trans <|
    (Quiet.passes h₃).trans <| (Quiet.passes h₄).trans <| (Quiet.passes h₅).trans (Quiet.passes h₆)
  have ht : t.Placed := hs.extended <| (extends_of_eq h₁).trans <| (extends_of_eq h₂).trans <|
    (extends_of_eq h₃).trans <| (extends_of_eq h₄).trans <| (extends_of_eq h₅).trans (extends_of_eq h₆)
  obtain ⟨name, u, hname, h⟩ := bind_eq_some.mp h
  have hu : u.Placed := ht.extended (extends_of_eq hname)
  cases name with
  | none => cases h
  | some name =>
    obtain ⟨⟨⟨brackets, params⟩, body⟩, w, hscope, ⟨⟩⟩ := bind_eq_some.mp h
    obtain ⟨v, hv, rfl⟩ := inScope_eq_some.mp hscope
    obtain ⟨hbound, hspan⟩ := binding_passes ht hname
    -- The name is known inside, and after the function as well.
    have hmark : Reads (s.spot.knowing (name.variableNames ++ s.locals)) [.mark name.span] u.spot := by
      have hlocals : t.locals = s.locals := hpass.locals
      rw [hlocals] at hbound
      rw [hspan]
      exact .after (hpass.knowing _) (.mark hbound)
    have hinside : Follows (s.spot.knowing (name.variableNames ++ s.locals)) [.mark name.span] (do
        let _ ← blanks
        let params ← expectParameters g multiline
        let body ← expectBlock g multiline
        return (params, body)) fun r t' => Reads (s.spot.knowing (name.variableNames ++ s.locals))
          [.mark name.span, .list r.1.1 (r.1.2.map .parameter), .node (.block r.2)] t'.spot := by
      refine follows_skip fun _ => ?_
      refine (expectParameters_reads hg).follows fun params => ?_
      refine (expectBlock_reads hg).follows fun body => ?_
      exact follows_pure fun _ _ hr => hr
    have hreads := hinside hu hmark hv
    have hnode : Reads s.spot [.node (.statement
        (.function ⟨s.position, v.position⟩ name isAsync isGenerator brackets params body))]
        (v.spot.knowing (name.variableNames ++ s.locals)) := by
      refine .node (c := v.spot) ?_ rfl trivial hreads
      rintro span ⟨⟩
      rfl
    have hlocals : u.locals = name.variableNames ++ s.locals := by
      have hu' : u.locals = name.variableNames ++ t.locals := hbound.locals
      rw [hu']
      exact congrArg _ hpass.locals
    change Reads _ _ (v.spot.knowing u.locals)
    rw [hlocals]
    exact hnode

/-! ### Control -/

theorem ifStatement_reads : (ifStatement g multiline).ReadsNode .statement := by
  refine readsAs_position fun a => ?_
  refine follows_skip fun _ => ?_
  refine (condition_reads hg).follows fun test => ?_
  refine (body_reads hg).follows fun whenTrue => ?_
  refine follows_skip fun more => ?_
  refine follows_ite (fun _ => ?_) fun _ => ?_
  · exact (body_reads hg).follows fun whenFalse => completes_node rfl
  · exact completes_node rfl

theorem switchStatement_reads : (switchStatement g multiline).ReadsNode .statement := by
  refine readsAs_position fun _ => ?_
  refine follows_skip fun _ => ?_
  refine (condition_reads hg).follows fun _ => ?_
  refine (expectBlock_reads hg).follows fun _ => ?_
  exact completes_node rfl

omit hg in
theorem labelEnd_completes (test : Option Expression) :
    Completes a (valueComponents test) (labelEnd a.position test) fun x => [.node (.statement x)] :=
  follows_skip fun _ => follows_skip fun _ => completes_node rfl

theorem caseLabel_reads : (caseLabel g multiline).ReadsNode .statement := by
  refine readsAs_position fun _ => ?_
  refine follows_skip fun _ => follows_skip fun _ => ?_
  refine (hg.expression multiline true).follows fun test => ?_
  exact labelEnd_completes (some test)

omit hg in
theorem defaultLabel_reads : defaultLabel.ReadsNode .statement :=
  readsAs_position fun _ => follows_skip fun _ => labelEnd_completes none

theorem whileStatement_reads : (whileStatement g multiline).ReadsNode .statement := by
  refine readsAs_position fun _ => ?_
  refine follows_skip fun _ => ?_
  refine (condition_reads hg).follows fun _ => ?_
  refine (body_reads hg).follows fun _ => ?_
  exact completes_node rfl

theorem doCondition_reads : (doCondition g multiline).ReadsNode .expression := by
  refine readsAs_skip fun _ => readsAs_ite (fun _ => condition_reads hg) fun _ => readsAs_skip fun _ => ?_
  intro s hs e s' h
  cases h
  exact reads_missing s

theorem doStatement_reads : (doStatement g multiline).ReadsNode .statement := by
  refine readsAs_position fun _ => ?_
  refine follows_skip fun _ => ?_
  refine (body_reads hg).follows fun _ => ?_
  refine (doCondition_reads hg).follows fun _ => ?_
  exact completes_node rfl

/-! ### Loops -/

omit hg in
theorem reads_head {e : Expression} (h : Reads a [.node (.expression e)] b) :
    Reads a [.node (.head (.expression e))] b :=
  Reads.wrap (n := .expression e) ⟨rfl, rfl, fun _ => trivial⟩ rfl rfl h

omit hg in
theorem reads_head_nothing (a : Spot) : Reads a [.node (.head .nothing)] a := by
  refine .plain ⟨rfl, rfl, fun _ => trivial⟩ ?_ (.refl a)
  rintro span ⟨⟩

theorem loopBinding_reads : (loopBinding g).ReadsNode .head := by
  refine readsAs_look fun s hs => ?_
  split
  · intro head s' h
    rw [change_bind_run] at h
    obtain ⟨⟨span, declarators⟩, t, hd, ⟨⟩⟩ := bind_eq_some.mp h
    exact declaration_node hg hs hd rfl
  · exact (hg.expression true false).map (k := LoopHead.expression) (fun _ _ _ h => reads_head h) hs

theorem valuesHead_reads : (valuesHead g).ReadsAs fun r =>
    [.node (.head r.1), .node (.expression r.2.2)] := by
  refine readsAs_of_completes fun a => ?_
  refine follows_skip fun head => ?_
  refine (loopBinding_reads hg).follows fun head => ?_
  refine follows_skip fun isOf => follows_skip fun isOf => follows_skip fun value => ?_
  refine (expectExpression_reads hg).follows fun value => ?_
  refine follows_skip fun _ => follows_skip fun _ => ?_
  exact follows_pure fun _ _ hr => hr

theorem countingStart_reads : (countingStart g).ReadsNode .head := by
  refine readsAs_look fun s hs => ?_
  -- A declaration after its keyword, an expression, or nothing at all.
  split
  · intro head s' h
    rw [change_bind_run] at h
    obtain ⟨r, t, hd, h⟩ := bind_eq_some.mp h
    have hd := found_eq_some.mp hd
    cases r with
    | some r =>
      obtain ⟨span, declarators⟩ := r
      cases h
      exact declaration_node hg hs hd rfl
    | none =>
      have hpass : s.spot.Passes t.spot := (State.passes_advance s).trans (FailsQuietly.passes hd)
      cases h
      exact .after hpass (reads_head_nothing _)
  · have hquiet := hg.expressionFails true true
    refine Completes.readsAt hs ((hg.expression true true).follows_found (fun value => ?_) ?_)
    · exact follows_pure fun _ _ hr => reads_head hr
    · exact follows_pure fun _ _ hr => hr.append (reads_head_nothing _)

theorem optionalValue_follows {cs : List Component} {Q : α → State → Prop} {k : Option Expression → Parser α}
    (h : ∀ value, Follows a (cs ++ valueComponents value) (k value) Q) :
    Follows a cs (found (g.expression multiline true) >>= k) Q := by
  have hquiet := hg.expressionFails multiline true
  refine (hg.expression multiline true).follows_found (fun value => h (some value)) ?_
  have hnone := h none
  rwa [show cs ++ valueComponents none = cs from List.append_nil cs] at hnone

theorem countingHead_reads : (countingHead g multiline).ReadsAs fun r =>
    .node (.head r.1) :: (valueComponents r.2.1 ++ valueComponents r.2.2) := by
  refine readsAs_of_completes fun a => ?_
  refine follows_skip fun head => ?_
  refine (countingStart_reads hg).follows fun head => ?_
  refine follows_skip fun _ => follows_skip fun _ => follows_skip fun test => ?_
  refine optionalValue_follows hg fun test => ?_
  refine follows_skip fun _ => follows_skip fun _ => follows_skip fun update => ?_
  refine optionalValue_follows hg fun update => ?_
  refine follows_skip fun closed => follows_skip fun closed => ?_
  refine follows_ite (fun _ => follows_skip fun _ => ?_) fun _ => ?_
  all_goals
    refine follows_pure fun s _ hr => ?_
    simpa using hr

theorem countingLoop_reads {hasHead : Bool} :
    Follows a [] (countingLoop g multiline hasHead a.position) fun x s' =>
      Reads a [.node (.statement x)] (s'.spot.knowing a.locals) := by
  -- Whatever the head is, the loop is a scope from the word `for` to the end of its body.
  have hend (head : LoopHead) (test update : Option Expression) :
      Follows a (.node (.head head) :: (valueComponents test ++ valueComponents update)) (do
        let inner ← body g multiline
        return .forLoop (← spanFrom a.position) head test update inner) fun x s' =>
          Reads a [.node (.statement x)] (s'.spot.knowing a.locals) := by
    refine (body_reads hg).follows fun inner => ?_
    intro s x s' hs hr h
    cases h
    refine .scope rfl rfl trivial ?_ ?_
    · rintro span ⟨⟩
      rfl
    · simpa [Node.components, Node.children, Statement.children, valueComponents] using hr
  cases hasHead with
  | true =>
    refine (countingHead_reads hg).follows ?_
    rintro ⟨head, test, update⟩
    exact hend head test update
  | false =>
    intro s x s' hs hr h
    exact hend .nothing none none hs (hr.append (reads_head_nothing _)) h

theorem loopAfter_reads {isAwait hasHead : Bool} :
    Follows a [] (loopAfter g multiline isAwait hasHead a.position) fun x s' =>
      Reads a [.node (.statement x)] (s'.spot.knowing a.locals) := by
  have hhead : (do
      require hasHead
      valuesHead g).ReadsAs fun r => [.node (.head r.1), .node (.expression r.2.2)] :=
    readsAs_skip fun _ => valuesHead_reads hg
  refine hhead.follows_attempt ?_ (countingLoop_reads hg)
  rintro ⟨head, isOf, value⟩
  refine (body_reads hg).follows fun inner => ?_
  intro s x s' hs hr h
  cases isOf <;> cases h <;> refine .scope (c := s.spot) rfl rfl trivial ?_ hr <;> rintro span ⟨⟩ <;> rfl

theorem forStatement_reads : (forStatement g multiline).ReadsNode .statement := by
  intro s hs x s' h
  obtain ⟨t, ht, rfl⟩ := inScope_eq_some.mp h
  -- Up to the head everything is passed over.
  have hloop : Follows s.spot [] (do
      change .advance
      let _ ← blanks
      let isAwait ← eatsWord "await"
      let _ ← blanks
      let hasHead ← expect .parenOpen
      loopAfter g multiline isAwait hasHead s.spot.position) fun x s' =>
        Reads s.spot [.node (.statement x)] (s'.spot.knowing s.spot.locals) := by
    refine follows_skip fun _ => follows_skip fun _ => follows_skip fun _ => ?_
    refine follows_skip fun _ => follows_skip fun _ => ?_
    exact loopAfter_reads hg
  exact hloop hs (.refl _) ht

end Control

/-! ### Failures, jumps and values -/

/-- The word that goes on with a statement stands after trivia. -/
theorem goesOn_passes {word : String} (h : goesOn word multiline s = (some true, s')) :
    (s.skipTrivia multiline).spot.Passes s'.spot := by
  obtain ⟨r, t, hattempt, h⟩ := bind_eq_some.mp h
  obtain ⟨w, rfl, hword⟩ | ⟨rfl, -⟩ := attempt_eq_some.mp hattempt
  · cases h
    have heat : eatWord word (s.skipTrivia multiline) = (some w, s') := hword
    exact Quiet.passes heat
  · cases h

/-- What is caught is known from there on. -/
theorem caughtWord_passes {name : Option String} (h : caughtWord s = (some name, s')) :
    (s.spot.knowing (name.toList ++ s.locals)).Passes s'.spot := by
  obtain ⟨isWord, t, hword, h⟩ := bind_eq_some.mp (show (eats .word >>= _) s = _ from h)
  have hpass : s.spot.Passes t.spot := Quiet.passes hword
  split at h
  · cases h
    exact State.passes_declare hpass _
  · cases h
    exact hpass

theorem caughtName_passes {name : Option String} (h : caughtName s = (some name, s')) :
    (s.spot.knowing (name.toList ++ s.locals)).Passes s'.spot := by
  obtain ⟨_, t, h₁, h⟩ := bind_eq_some.mp h
  obtain ⟨name', u, hname, h⟩ := bind_eq_some.mp h
  obtain ⟨_, v, h₂, h⟩ := bind_eq_some.mp h
  obtain ⟨_, w, h₃, ⟨⟩⟩ := bind_eq_some.mp h
  have hpass : s.spot.Passes t.spot := Quiet.passes h₁
  have hcaught := caughtWord_passes hname
  rw [show t.locals = s.locals from hpass.locals] at hcaught
  exact (hpass.knowing _).trans <| hcaught.trans <| (Quiet.passes h₂).trans (Quiet.passes h₃)

/-- A clause starts after trivia, where the word is that it is known by. -/
theorem clause_reads {word : String} {k : Position → Parser (List Clause)}
    (h : ∀ (b : Spot) (t : State) cs t', t.Placed → b.Passes t.spot → k b.position t = (some cs, t') →
      Reads b ((cs.map Node.clause).map .node) t'.spot) :
    (do
      let start ← positionAhead multiline
      if ← goesOn word multiline then k start else return []).ReadsAs
        fun cs => (cs.map Node.clause).map .node := by
  intro s hs cs s' hx
  obtain ⟨_, _, ⟨⟩, hx⟩ := bind_eq_some.mp hx
  obtain ⟨more, t, hmore, hx⟩ := bind_eq_some.mp hx
  have ht : t.Placed := hs.extended (extends_of_eq hmore)
  cases more with
  | true => exact .after (State.passes_skipTrivia multiline s) (h _ t _ _ ht (goesOn_passes hmore) hx)
  | false =>
    have hpass : s.spot.Passes t.spot := Quiet.passes hmore
    cases hx
    exact .gap hpass

section Jumps

variable (hg : g.Derives)
include hg

theorem handler_reads : (handler g multiline).ReadsAs fun cs => (cs.map Node.clause).map .node := by
  refine clause_reads fun b t cs t' ht hb h => ?_
  obtain ⟨⟨name, inner⟩, w, hscope, ⟨⟩⟩ := bind_eq_some.mp h
  obtain ⟨v, hv, rfl⟩ := inScope_eq_some.mp hscope
  obtain ⟨_, t₁, h₁, hv⟩ := bind_eq_some.mp hv
  obtain ⟨isOpen, t₂, h₂, hv⟩ := bind_eq_some.mp hv
  have hpass : b.Passes t₂.spot := hb.trans ((Quiet.passes h₁).trans (Quiet.passes h₂))
  have ht₂ : t₂.Placed := ht.extended ((extends_of_eq h₁).trans (extends_of_eq h₂))
  -- The name is known to the block, and to the block only.
  have hinside : ∃ u : State, u.Placed ∧ (b.knowing (name.toList ++ b.locals)).Passes u.spot ∧
      expectBlock g multiline u = (some inner, v) := by
    cases isOpen with
    | true =>
      obtain ⟨name', u, hname, hv⟩ := bind_eq_some.mp hv
      obtain ⟨inner', v', hblock, ⟨⟩⟩ := bind_eq_some.mp hv
      refine ⟨u, ht₂.extended (extends_of_eq hname), ?_, hblock⟩
      have hcaught := caughtName_passes hname
      rw [show t₂.locals = b.locals from hpass.locals] at hcaught
      exact (hpass.knowing _).trans hcaught
    | false =>
      obtain ⟨_, _, ⟨⟩, hv⟩ := bind_eq_some.mp hv
      obtain ⟨inner', v', hblock, ⟨⟩⟩ := bind_eq_some.mp hv
      exact ⟨_, ht₂, hpass, hblock⟩
  obtain ⟨u, hu, hknown, hblock⟩ := hinside
  have hreads : Reads (b.knowing (name.toList ++ b.locals)) [.node (.block inner)] v.spot :=
    .after hknown (expectBlock_reads hg hu hblock)
  have hnode : Reads b [.node (.clause (.handler ⟨b.position, v.position⟩ name inner))]
      (v.spot.knowing b.locals) := by
    refine .node (c := v.spot) ?_ rfl trivial hreads
    rintro span ⟨⟩
    rfl
  have hlocals : t.locals = b.locals := hb.locals
  change Reads _ _ (v.spot.knowing t.locals)
  rw [hlocals]
  exact hnode

theorem finalizer_reads : (finalizer g multiline).ReadsAs fun cs => (cs.map Node.clause).map .node := by
  refine clause_reads fun b t cs t' ht hb h => ?_
  obtain ⟨inner, u, hblock, ⟨⟩⟩ := bind_eq_some.mp h
  exact .framed rfl (.after hb (expectBlock_reads hg ht hblock))

theorem tryStatement_reads : (tryStatement g multiline).ReadsNode .statement := by
  refine readsAs_position fun a => ?_
  refine follows_skip fun _ => ?_
  refine (expectBlock_reads hg).follows fun inner => ?_
  refine (handler_reads hg).follows fun caught => ?_
  refine (finalizer_reads hg).follows fun finished => ?_
  intro s x s' hs hr h
  have hnode : Reads a
      [.node (.statement (.attempt ⟨a.position, s.position⟩ inner (caught ++ finished)))] s.spot := by
    refine .plain ⟨rfl, rfl, fun _ => trivial⟩ ?_ ?_
    · rintro span ⟨⟩
      rfl
    · simpa [Node.components, Node.children, Statement.children] using hr
  obtain ⟨span, _, ⟨⟩, h⟩ := bind_eq_some.mp h
  split at h <;> cases h <;> exact hnode

theorem throwStatement_reads : (throwStatement g multiline).ReadsNode .statement := by
  refine readsAs_position fun _ => ?_
  refine follows_skip fun _ => follows_skip fun _ => ?_
  refine (expectExpression_reads hg).follows fun _ => ?_
  exact completes_node rfl

theorem returnStatement_reads : (returnStatement g multiline).ReadsNode .statement := by
  have hvalue : (do
      let _ ← blanks
      g.expression multiline true).ReadsNode .expression :=
    readsAs_skip fun _ => hg.expression multiline true
  refine readsAs_position fun _ => ?_
  refine follows_skip fun _ => ?_
  exact hvalue.follows_attempt (fun _ => completes_node rfl) (completes_node rfl)

end Jumps

/-- `break` and `continue`. -/
theorem jump_reads {k : Span → Option String → Statement}
    (hframe : (fun span label => (Node.statement (k span label)).frame) =
      fun span _ => (some span, [], true)) :
    (do
      let (span, label) ← jump
      return k span label).ReadsNode .statement := by
  -- The label is part of the statement itself and no component of it.
  have hjump : jump.ReadsNode fun r => .statement (k r.1 r.2) := by
    refine readsAs_position fun _ => ?_
    refine follows_skip fun _ => follows_skip fun label => ?_
    refine completes_node ?_
    funext span
    exact congrFun (congrFun hframe span) label
  intro s hs x s' h
  obtain ⟨r, t, hr, ⟨⟩⟩ := bind_eq_some.mp h
  exact hjump hs hr

/-! ### Imports -/

instance : Quiet importAlias := by unfold importAlias; infer_instance

instance : Quiet importIn := by unfold importIn; infer_instance

/-- Blanks that are read are tokens. -/
theorem someBlanks_shorter {x : Unit} (h : someBlanks s = (some x, s')) :
    s'.rest.length < s.rest.length := by
  obtain ⟨isBlank, t, hblanks, h⟩ := bind_eq_some.mp h
  obtain ⟨_, _, ⟨⟩, hblanks⟩ := bind_eq_some.mp hblanks
  cases hblanks
  have h : require s.kind.isBlank s.skipBlanks = (some x, s') := h
  cases hblank : s.kind.isBlank with
  | false =>
    rw [hblank] at h
    cases h
  | true =>
    rw [hblank] at h
    cases h
    change (s.rest.dropWhile fun t => t.kind.isBlank).length < s.rest.length
    unfold State.kind State.current at hblank
    -- There is a token, and it is one of the blanks.
    cases hrest : s.rest with
    | nil =>
      rw [hrest] at hblank
      cases hblank
    | cons t ts =>
      rw [hrest] at hblank
      have ht : t.kind.isBlank = true := hblank
      rw [List.dropWhile_cons, if_pos ht]
      exact Nat.lt_succ_of_le (List.length_dropWhile_le _ ts)

/-- After a word at least, the rest of the line is passed over. -/
theorem abandonImport_follows {m : Message} {arguments : List String} (hword : a.Passes b) :
    Follows b [] (abandonImport a.position m arguments) fun x s' =>
      Reads a [.node (.statement x)] s'.spot := by
  have hcompletes : Completes a [] (abandonImport a.position m arguments) fun x => [.node (.statement x)] :=
    follows_skip fun _ => follows_skip fun _ => completes_node rfl
  exact fun s x s' hs hr h => hcompletes hs (.after hword hr) h

/-- A new name is an identifier. -/
theorem importAlias_gives : importAlias.Gives State.Anyhow fun name => isIdentifier name = true := by
  unfold importAlias
  refine gives_skip fun _ => gives_skip fun _ => gives_skip fun t => ?_
  intro s name s' _ h
  obtain ⟨_, _, hrequired, h⟩ := bind_eq_some.mp h
  cases h
  exact (require_eq_some.mp hrequired).1

section Imports

variable (hg : g.Derives)
include hg

/-- The values in a path. -/
theorem importPath_reads (hs : s.Placed) {path : String × Bool} (h : importPath g s = (some path, s')) :
    ∃ ns : List Node, (∀ v ∈ ns, v.isValue = true) ∧ Reads s.spot (ns.map .node) s'.spot := by
  obtain ⟨_, _, ⟨⟩, h⟩ := bind_eq_some.mp h
  obtain ⟨⟨parts, closing⟩, t, hquoted, ⟨⟩⟩ := bind_eq_some.mp h
  refine ⟨parts.map .part, fun v hv => ?_, quoted_reads hg s.kind hs hquoted⟩
  obtain ⟨p, -, rfl⟩ := List.mem_map.mp hv
  rfl

/-- An import is recorded after what its path has imported, and its name becomes known after it. One whose
path does not end is given up. -/
theorem importFrom_follows {isIn : Bool} {name : String} (hname : isIdentifier name = true)
    (hword : a.Passes b) (hlater : b.rest.length < a.rest.length) :
    Follows b [] (importFrom g a.position isIn name) fun x s' =>
      Reads a [.node (.statement x)] s'.spot := by
  refine follows_skip fun _ =>
    follows_skip_of (fun _ _ _ h => importAlias_gives.attempt trivial h) fun newName hnewName => ?_
  -- The name that is bound is a name in either case.
  have hbinding : isIdentifier (newName.getD name) = true := by
    cases newName with
    | none => exact hname
    | some newName => exact hnewName newName rfl
  refine follows_skip fun _ => follows_skip fun more => ?_
  refine follows_ite (fun _ => ?_) fun _ => abandonImport_follows hword
  refine follows_skip fun _ => follows_skip fun s => ?_
  refine follows_ite (fun _ => ?_) fun _ => abandonImport_follows hword
  intro s x s' hs hr h
  obtain ⟨⟨path, closed⟩, t, hpath, h⟩ := bind_eq_some.mp h
  obtain ⟨ns, hvalues, hvalue⟩ := importPath_reads hg hs hpath
  have hpass : a.Passes s.spot := hword.trans hr.passes
  have hfewer : s.spot.rest.length < a.rest.length := Nat.lt_of_le_of_lt hr.onward.rest.length_le hlater
  -- An import, or what is left of it, covers all from its first word to the end of its path.
  have hnode {n : Node} (hn : n.hasPath = true) (hspan : n.span? = some ⟨a.position, t.position⟩)
      (hrecords : ∀ i ∈ n.records, isIdentifier i.binding = true) : Reads a [.node n] (a.leaving n t.spot) := by
    refine .path hn hrecords (fun span hmem => ?_) hpass hfewer hvalues hvalue
    rw [hspan] at hmem
    exact (Option.mem_some.mp hmem).symm
  cases closed with
  | false =>
    cases h
    exact hnode rfl rfl nofun
  | true =>
    cases isIn <;> cases h <;> exact hnode rfl rfl (List.forall_mem_singleton.mpr hbinding)

theorem importStatement_reads : (importStatement g).ReadsNode .statement := by
  refine readsAs_position fun a => follows_skip fun _ => ?_
  intro s x s' hs hr h
  obtain ⟨_, u, hblanks, h⟩ := bind_eq_some.mp h
  have hpass : s.spot.Passes u.spot := Quiet.passes hblanks
  have hword : a.Passes u.spot := hr.passes.trans hpass
  have hlater : u.spot.rest.length < a.rest.length :=
    Nat.lt_of_lt_of_le (someBlanks_shorter hblanks) hr.onward.rest.length_le
  have hrest (isIn : Option Unit) (t : Token) : Follows u.spot [] (if t.kind = .word && isIdentifier t.text
      then importFrom g a.position isIn.isSome t.text
      else abandonImport a.position .identifierExpected []) fun x s' =>
        Reads a [.node (.statement x)] s'.spot :=
    follows_ite (fun hname => importFrom_follows hg (Bool.and_eq_true_iff.mp hname).2 hword hlater) fun _ =>
      abandonImport_follows hword
  -- A word is passed over before it is known whether it is a name.
  have hafter : Follows u.spot [] (attempt importIn >>= fun isIn => look State.current >>= fun t =>
      if t.kind = .word then change .advance >>= fun _ =>
        if t.kind = .word && isIdentifier t.text then importFrom g a.position isIn.isSome t.text
        else abandonImport a.position .identifierExpected []
      else if t.kind = .word && isIdentifier t.text then importFrom g a.position isIn.isSome t.text
        else abandonImport a.position .identifierExpected []) fun x s' =>
      Reads a [.node (.statement x)] s'.spot := by
    refine follows_skip fun isIn => follows_skip fun t => ?_
    exact follows_ite (fun _ => follows_skip fun _ => hrest isIn t) fun _ => hrest isIn t
  exact hafter (hs.extended (extends_of_eq hblanks)) (.refl _) h

/-! ### All statements -/

theorem expressionStatement_reads : (expressionStatement g multiline).ReadsNode .statement :=
  (hg.expression multiline true).map (k := Statement.expression) fun _ _ e h =>
    Reads.wrap (n := .expression e) ⟨rfl, rfl, fun _ => trivial⟩ rfl rfl h

theorem variableStatement_reads (hs : s.Placed) :
    (variableStatement g multiline s.current).ReadsAt s fun x => [.node (.statement x)] := by
  unfold variableStatement
  split
  · exact readsAs_fail hs
  · intro x s' h
    rw [change_bind_run] at h
    obtain ⟨⟨span, declarators⟩, t, hd, ⟨⟩⟩ := bind_eq_some.mp h
    exact declaration_node hg hs hd rfl

theorem wordStatement_reads (hs : s.Placed) :
    (wordStatement g multiline s.current).ReadsAt s fun x => [.node (.statement x)] := by
  have hfunction : (do
      if ← succeeds functionDeclarationAhead then functionDeclaration g multiline
      else expressionStatement g multiline).ReadsNode .statement :=
    readsAs_skip fun _ => readsAs_ite (fun _ => functionDeclaration_reads hg)
      fun _ => expressionStatement_reads hg
  have hleave : (do
      let (span, label) ← jump
      return Statement.leave span label).ReadsNode .statement := jump_reads rfl
  have hnext : (do
      let (span, label) ← jump
      return Statement.next span label).ReadsNode .statement := jump_reads rfl
  unfold wordStatement
  split
  · exact variableStatement_reads hg hs
  · exact variableStatement_reads hg hs
  · exact variableStatement_reads hg hs
  · exact hfunction hs
  · exact hfunction hs
  · exact ifStatement_reads hg hs
  · exact switchStatement_reads hg hs
  · exact caseLabel_reads hg hs
  · exact defaultLabel_reads hs
  · exact whileStatement_reads hg hs
  · exact doStatement_reads hg hs
  · exact forStatement_reads hg hs
  · exact tryStatement_reads hg hs
  · exact throwStatement_reads hg hs
  · exact importStatement_reads hg hs
  · exact hleave hs
  · exact hnext hs
  · exact returnStatement_reads hg hs
  · exact readsAt_token hs rfl
  · exact expressionStatement_reads hg hs

theorem bareStatement_reads : (bareStatement g multiline).ReadsNode .statement := by
  refine readsAs_look fun s hs => ?_
  split
  · exact (block_reads_statement hg).map (k := Statement.block) (fun _ _ _ h => h) hs
  · exact readsAt_token hs rfl
  · exact wordStatement_reads hg hs
  · exact expressionStatement_reads hg hs

theorem statement_reads : (statement g multiline).ReadsNode .statement := by
  refine readsAs_of_completes fun _ => ?_
  refine (bareStatement_reads hg).follows fun _ => ?_
  refine follows_skip fun _ => ?_
  exact follows_pure fun _ _ hr => hr

end Imports

/-! ### Levels of nesting -/

theorem guarded_reads {inner instead : Parser α} {f : α → List Component} (hinner : inner.ReadsAs f)
    (hinstead : instead.ReadsAs f) : (guarded inner instead).ReadsAs f := by
  refine readsAs_skip fun s => readsAs_ite (fun _ => hinner.deeper) fun _ => ?_
  exact readsAs_ite (fun _ => readsAs_skip fun _ => hinstead) fun _ => hinstead

/-- What stands in for what is nested too deep is a placeholder of no text, before the rest of the line. -/
theorem refused_derives : refused.Derives where
  expression multiline binary := by
    intro s hs e s' h
    cases h
    exact (reads_missing s).pass (State.passes_skipWhile _ s)
  operand multiline := by
    intro s hs e s' h
    cases h
    exact reads_missing s
  statement multiline := by
    intro s hs x s' h
    cases h
    exact (reads_missing_statement s).pass (State.passes_skipWhile _ s)
  expressionFails multiline binary := ⟨fun h => by cases h⟩
  statementFails multiline := ⟨fun h => by cases h⟩

theorem levelled_derives
    (hexpression : ∀ multiline binary, (g.expression multiline binary).ReadsNode .expression)
    (hoperand : ∀ multiline, (g.operand multiline).ReadsNode .expression)
    (hstatement : ∀ multiline, (g.statement multiline).ReadsNode .statement) : (levelled g).Derives where
  expression multiline binary :=
    (guarded_reads (hexpression multiline binary) (refused_derives.expression multiline binary)).rewind
  operand multiline := guarded_reads (hoperand multiline) (refused_derives.operand multiline)
  statement multiline :=
    (guarded_reads (hstatement multiline) (refused_derives.statement multiline)).rewind
  expressionFails multiline binary := by unfold levelled; infer_instance
  statementFails multiline := by unfold levelled; infer_instance

/-- **All levels read by derivations.** -/
theorem nested_derives (n : Nat) : (nested n).Derives := by
  induction n with
  | zero =>
    exact levelled_derives refused_derives.expression refused_derives.operand refused_derives.statement
  | succ n ih =>
    exact levelled_derives (fun _ binary => expression_reads ih binary) (fun _ => prefixed_reads ih)
      fun _ => statement_reads ih

/-! ### A whole story -/

theorem lines_reads : lines.ReadsAs fun ls => (ls.map Node.line).map .node := by
  have hline : (line outermost).ReadsNode .line := line_reads (nested_derives nestingLimit)
  refine readsAs_of_completes fun a =>
    follows_repeated (I := fun ls => (ls.reverse.map Node.line).map .node) (fun ls => ?_) rfl
  refine follows_skip fun atEnd => follows_ite (fun _ => ?_) fun _ => ?_
  · exact follows_pure fun _ _ hr => hr
  · refine follows_withProgress hline (fun l => ?_) ?_
    · refine follows_pure fun u _ hr => ?_
      change Reads a (((l :: ls).reverse.map Node.line).map .node) u.spot
      simpa using hr
    · exact follows_pure fun _ _ hr => hr

end Grammar

open Grammar in
/-- What is left of a text is read by a derivation, to the end. -/
theorem State.parseModule_reads {s : State} (hs : s.Placed) (path : String) :
    ∃ b, Reads s.spot (((s.parseModule path).module.lines.map Node.line).map .node) b ∧ b.rest = [] ∧
      (s.parseModule path).module.span = ⟨.zero, b.finish⟩ ∧
      (s.parseModule path).module.imports = b.imports.reverse := by
  obtain ⟨ls, s', hlines, hend⟩ := lines_eq_some s
  have hrest : s'.rest = [] := State.rest_eq_nil (hs.extended (extends_of_eq hlines)) hend
  have hspan : s'.current.stop = s'.finish := by
    simp [State.current, hrest, Token.stop, Token.endfile, Position.advance]
  have hresult : (s.parseModule path).module = ⟨⟨.zero, s'.current.stop⟩, path, ls, s'.imports.reverse⟩ := by
    simp only [State.parseModule, hlines, Option.getD_some]
  rw [hresult]
  exact ⟨s'.spot, lines_reads hs hlines, hrest, congrArg (Span.mk .zero) hspan, rfl⟩

/-- **A story is read by a derivation,** from the start of its text to the end. -/
theorem parseModule_reads (text path : String) (indentSize : Nat) :
    ∃ b, Reads (State.ofText text indentSize).spot
        (((parseModule text path indentSize).module.lines.map Node.line).map .node) b ∧
      b.rest = [] ∧ (parseModule text path indentSize).module.span = ⟨.zero, b.finish⟩ ∧
      (parseModule text path indentSize).module.imports = b.imports.reverse :=
  State.parseModule_reads (State.placed_ofText text indentSize) path

end Story
