import Story.Proofs.Reads
import Story.Proofs.Loops
import Story.Proofs.TextLines

/-!
# Lines and expressions are read by derivations

The grammar is gone through once, production by production: whatever a production reads, it reads by a
derivation of its node. The readers one level further in are assumed to do so (`Nested.Derives`). This
module has lists, texts, lines, blocks and expressions; the statements follow apart.

What reading gives up is not in a derivation, since a parser that comes back has read nothing. So whatever
is shown about derivations holds of the trees, whichever alternatives were tried on the way.
-/

namespace Story

open Story.Parser Story.Grammar

/-- The readers one level further in read by derivations, and leave nothing behind where they fail. -/
structure Nested.Derives (g : Nested) : Prop where
  expression (multiline binary : Bool) : (g.expression multiline binary).ReadsNode .expression
  operand (multiline : Bool) : (g.operand multiline).ReadsNode .expression
  statement (multiline : Bool) : (g.statement multiline).ReadsNode .statement
  expressionFails (multiline binary : Bool) : FailsQuietly (g.expression multiline binary)
  statementFails (multiline : Bool) : FailsQuietly (g.statement multiline)

/-! ### Parsers that never fail -/

namespace Parser

variable {α β σ : Type} {p q : Parser α}

/-- A parser that never fails. -/
class Total (p : Parser α) : Prop where
  succeeds (s : State) : ∃ x s', p s = (some x, s')

instance (x : α) : Total (pure x : Parser α) := ⟨fun _ => ⟨_, _, rfl⟩⟩

instance (f : State → α) : Total (look f) := ⟨fun _ => ⟨_, _, rfl⟩⟩

instance : Total state := ⟨fun _ => ⟨_, _, rfl⟩⟩

instance (f : Step) : Total (change f) := ⟨fun _ => ⟨_, _, rfl⟩⟩

instance (p : Parser α) : Total (found p) := ⟨fun _ => ⟨_, _, rfl⟩⟩

instance (p : Parser α) : Total (attempt p) := inferInstanceAs (Total (found (rewind p)))

theorem Total.bind {f : α → Parser β} (hp : Total p) (hf : ∀ x, Total (f x)) : Total (p >>= f) where
  succeeds s := by
    obtain ⟨x, t, hx⟩ := hp.succeeds s
    obtain ⟨y, u, hy⟩ := (hf x).succeeds t
    exact ⟨y, u, bind_eq_some.mpr ⟨x, t, hx, hy⟩⟩

instance (f : α → Parser β) [hp : Total p] [hf : ∀ x, Total (f x)] : Total (p >>= f) := hp.bind hf

instance (c : Prop) [Decidable c] [Total p] [Total q] : Total (if c then p else q) := by
  split <;> infer_instance

theorem Total.repeated {body : σ → Parser (Round σ α)} [h : ∀ x, Total (body x)]
    (hadvances : Advances body) (x : σ) : Total (repeated body x) where
  succeeds s := by
    have hround (x : σ) (s : State) : ∃ r s', body x s = (some r, s') := (h x).succeeds s
    have hdone (x : σ) (s : State) (r : α) (s' : State) (_ : body x s = (some (.done r), s')) : True :=
      trivial
    obtain ⟨r, s', hr, -⟩ := loop_succeeds hadvances hround hdone x s
    exact ⟨r, s', hr⟩

instance : Total token := by unfold token; infer_instance

instance (kind : TokenKind) : Total (eats kind) := by unfold eats eatsIf; infer_instance

instance (multiline : Bool) : Total (trivia multiline) := by unfold trivia; infer_instance

instance : Total position := by unfold position; infer_instance

instance (start : Position) : Total (spanFrom start) := by unfold spanFrom; infer_instance

instance (span : Span) (m : Message) (arguments : List String) : Total (reportAt span m arguments) := by
  unfold reportAt; infer_instance

instance (m : Message) (arguments : List String) : Total (report m arguments) := by
  unfold report; infer_instance

instance (what : String) : Total (expected what) := by unfold expected; infer_instance

instance (name : String) : Total (declare name) := by unfold declare; infer_instance

/-- What can fail only at its start fails before anything is made of the text. -/
instance [Quiet p] (k : α → Parser β) [hk : ∀ x, Total (k x)] : FailsQuietly (p >>= k) where
  passes {s s'} h := by
    change bindRun p k s = _ at h
    unfold bindRun at h
    split at h
    · next t hp =>
      cases h
      exact Quiet.passes hp
    · next x t hp =>
      obtain ⟨y, u, hy⟩ := (hk x).succeeds t
      rw [hy] at h
      cases h

end Parser

namespace Grammar

variable {α β : Type} {g : Nested} {multiline : Bool} {a b d : Spot} {s s' : State}

/-! ### Lists -/

section Lists

variable {style : ListStyle} {item : List α → Parser α} {F : α → Node}

/-- The items of a list that is being read. -/
def ListProgress.components (F : α → Node) (p : ListProgress α) : List Component :=
  (p.items.reverse.map F).map .node

/-- What is known when a list is done: its items have been read, and the bracket that closes it. -/
def ListRead (F : α → Node) (a : Spot) (r : List α × Option Span) (s : State) : Prop :=
  ∃ c : Spot, Reads a ((r.1.map F).map .node) c ∧ c.Closes r.2 s.spot

theorem listItem_follows (hitem : ∀ taken, (item taken).ReadsNode F) (p : ListProgress α) :
    Follows a (p.components F) (listItem style item p)
      (Round.Post a (ListProgress.components F) (ListRead F a)) := by
  have added (x : α) (due : Bool) :
      p.components F ++ [.node (F x)] = (⟨x :: p.items, due⟩ : ListProgress α).components F := by
    simp [ListProgress.components]
  unfold listItem
  refine follows_skip fun before => (hitem p.items).follows_attempt (fun x => ?_) ?_
  · -- An item was read; whether it is due to be followed by a separator changes nothing about what was
    -- read.
    rw [added x style.separator.isSome]
    refine follows_skip fun after => ?_
    exact follows_ite (fun _ => follows_skip fun _ => follows_pure fun _ _ h => h)
      fun _ => follows_pure fun _ _ h => h
  · -- The token that is passed over is part of no item.
    exact follows_skip fun t => follows_skip fun _ => follows_pure fun _ _ h => h

theorem listElement_follows (hitem : ∀ taken, (item taken).ReadsNode F) (p : ListProgress α) :
    Follows a (p.components F) (listElement style item p)
      (Round.Post a (ListProgress.components F) (ListRead F a)) := by
  unfold listElement
  split
  · exact listItem_follows hitem p
  · refine follows_skip fun s => follows_ite (fun _ => ?_) fun _ => ?_
    · -- A separator is passed over, be it reported or not.
      have hnext : Follows a (p.components F)
          (change .advance >>= fun _ => pure (.again ⟨p.items, false⟩))
          (Round.Post a (ListProgress.components F) (ListRead F a)) :=
        follows_skip fun _ => follows_pure fun _ _ h => h
      exact follows_ite (fun _ => follows_skip fun _ => hnext) fun _ => hnext
    · exact follows_ite (fun _ => follows_skip fun _ => listItem_follows hitem p)
        fun _ => listItem_follows hitem p

theorem listRound_follows (hitem : ∀ taken, (item taken).ReadsNode F) (p : ListProgress α) :
    Follows a (p.components F) (listRound style item p)
      (Round.Post a (ListProgress.components F) (ListRead F a)) := by
  unfold listRound
  refine follows_skip fun _ => ?_
  intro s r s' hs hr h
  rw [state_bind_run] at h
  split at h
  · -- The closing bracket is the token that is read here.
    cases h
    exact ⟨s.spot, hr, s.spot, .refl _, State.passes_advance s, hs.span_current⟩
  · split at h
    · refine follows_skip (fun _ => follows_pure fun t _ ht => ?_) hs hr h
      exact ⟨t.spot, ht, .refl _⟩
    · exact listElement_follows hitem p hs hr h

/-- The opening bracket of a list, its items and the bracket that closes it. -/
theorem bracketed_read (hitem : ∀ taken, (item taken).ReadsNode F) (hs : s.Placed) {brackets : Brackets}
    {items : List α} (h : bracketed style item s = (some (brackets, items), s')) :
    brackets.opening = ⟨s.position, s.advance.position⟩ ∧
      ListRead F s.advance.spot (items, brackets.closing) s' := by
  obtain ⟨opening, t, hopen, h⟩ := bind_eq_some.mp h
  obtain ⟨⟨_, closing⟩, u, hloop, h⟩ := bind_eq_some.mp h
  cases h
  have ht : t.Placed := hs.extended (extends_of_eq hopen)
  have hstart : Reads t.spot ((⟨[], false⟩ : ListProgress α).components F) t.spot := .refl _
  have hread := follows_repeated (listRound_follows hitem) rfl ht hstart hloop
  obtain ⟨-, rfl, rfl⟩ := eat_eq_some.mp hopen
  exact ⟨hs.span_current, hread⟩

/-- **A list in brackets** is read as one, if its items are read as nodes. -/
theorem bracketed_reads (hitem : ∀ taken, (item taken).ReadsNode F) :
    (bracketed style item).ReadsAs fun r => [.list r.1 (r.2.map F)] := by
  intro s hs r s' h
  obtain ⟨⟨opening, closing⟩, items⟩ := r
  obtain ⟨rfl, c, hitems, hclose⟩ := bracketed_read hitem hs h
  exact .list (State.passes_advance s) hitems hclose

instance (p : ListProgress α) : Total (listRound style item p) := by
  have hitem : Total (listItem style item p) := by
    refine Total.bind inferInstance fun before => Total.bind inferInstance fun r => ?_
    cases r <;> infer_instance
  have helement : Total (listElement style item p) := by
    unfold listElement
    split <;> infer_instance
  unfold listRound
  infer_instance

/-- Only a list whose opening bracket is not there fails. -/
instance : FailsQuietly (bracketed style item) := by
  have hloop : Total (repeated (listRound style item) ⟨[], false⟩) :=
    .repeated (listRound_advances style item) _
  unfold bracketed
  infer_instance

end Lists

/-! ### Text with values in it -/

/-- The parts of a text. -/
def partComponents (parts : List TextPart) : List Component := (parts.map Node.part).map .node

namespace Content

/-- **Text that has been read up to `b`:** its parts have, and the pending chunk starts after them. -/
def ReadTo (a : Spot) (c : Content) (b : Spot) : Prop :=
  match c.pending with
  | none => Reads a (partComponents c.parts.reverse) b
  | some (start, _) =>
    ∃ m : Spot, Reads a (partComponents c.parts.reverse) m ∧ start = m.position ∧ m.Passes b

variable {c : Content}

theorem readTo_none (h : c.pending = none) :
    c.ReadTo a b ↔ Reads a (partComponents c.parts.reverse) b := by
  rw [ReadTo, h]

theorem readTo_some {start : Position} {text : String} (h : c.pending = some (start, text)) :
    c.ReadTo a b ↔
      ∃ m : Spot, Reads a (partComponents c.parts.reverse) m ∧ start = m.position ∧ m.Passes b := by
  rw [ReadTo, h]

theorem partComponents_reverse_cons (part : TextPart) (parts : List TextPart) :
    partComponents (part :: parts).reverse =
      partComponents parts.reverse ++ [.node (.part part)] := by
  simp [partComponents]

theorem ReadTo.flush (h : c.ReadTo a b) :
    Reads a (partComponents (c.flush b.position).parts.reverse) b := by
  rcases hp : c.pending with _ | ⟨start, text⟩
  · rw [Content.flush, hp]
    exact (readTo_none hp).mp h
  · -- The pending chunk becomes a part, from where it started to here.
    obtain ⟨m, hparts, rfl, hpass⟩ := (readTo_some hp).mp h
    rw [Content.flush, hp]
    dsimp only
    rw [partComponents_reverse_cons]
    exact hparts.append (.framed rfl (.gap hpass))

theorem flush_pending (c : Content) (stop : Position) : (c.flush stop).pending = none := by
  unfold Content.flush
  split
  · next h => exact h
  · rfl

theorem ReadTo.extend (h : c.ReadTo a b) (hpass : b.Passes d) (text : String) :
    (c.extend b.position text).ReadTo a d := by
  rcases hp : c.pending with _ | ⟨start, before⟩
  · rw [Content.extend, hp]
    exact ⟨b, (readTo_none hp).mp h, rfl, hpass⟩
  · obtain ⟨m, hparts, hstart, hm⟩ := (readTo_some hp).mp h
    rw [Content.extend, hp]
    exact ⟨m, hparts, hstart, hm.trans hpass⟩

theorem ReadTo.add (h : c.ReadTo a b) (hc : c.pending = none) {part : TextPart}
    (hpart : Reads b [.node (.part part)] d) : (c.add part).ReadTo a d := by
  rw [readTo_none (c := c.add part) hc]
  change Reads a (partComponents (part :: c.parts).reverse) d
  rw [partComponents_reverse_cons]
  exact ((readTo_none hc).mp h).append hpart

theorem ReadTo.flushed (h : c.ReadTo a b) : (c.flush b.position).ReadTo a b :=
  (readTo_none (flush_pending c _)).mpr h.flush

theorem ReadTo.pass (h : c.ReadTo a b) (hc : c.pending = none) (hpass : b.Passes d) : c.ReadTo a d :=
  (readTo_none hc).mpr (((readTo_none hc).mp h).pass hpass)

end Content

/-- **One token inside quotes.** The text ends, at the quote or without it; or a backslash is dropped before
a star, or kept with the token after it; or there is a value; or the token goes with the words. -/
theorem quotedRound_cases {quote : TokenKind} {opening : Span} {c : Content}
    {r : Round Content (List TextPart × Option Span)} (h : quotedRound g quote opening c s = (some r, s')) :
    (s.kind = quote ∧ s' = s.advance ∧ r = .done (c.finish s.position, some s.current.span)) ∨
      ((s.isEof = true ∨ s.kind = .endline ∧ quote ≠ .backtick) ∧
        s' = s.reportAt opening .unterminatedString [] ∧ r = .done (c.finish s.position, none)) ∨
      (s.kind = .backslash ∧ s.advance.kind = .star ∧ s' = s.advance.advance ∧
        r = .again ((c.flush s.position).extend s.advance.position s.advance.current.text)) ∨
      (s.kind = .backslash ∧ s.advance.kind ≠ .star ∧ s' = s.advance.advance ∧
        r = .again (c.extend s.position (s.current.text ++ s.advance.current.text))) ∨
      (s.kind = .star ∧ ∃ part, splice g s = (some part, s') ∧
        r = .again ((c.flush s.position).add part)) ∨
      (s.kind ≠ quote ∧ s.kind ≠ .backslash ∧ (s.kind = .star → (splice g s).1 = none) ∧
        s' = s.advance ∧ r = .again (c.extend s.position s.current.text)) := by
  unfold quotedRound at h
  rw [state_bind_run] at h
  split at h
  · -- The closing quote.
    next hquote =>
    cases h
    exact .inl ⟨hquote, rfl, rfl⟩
  next hquote =>
  split at h
  · -- The end of the file, or of a line that the text may not go beyond.
    next hend =>
    cases h
    refine .inr (.inl ⟨?_, rfl, rfl⟩)
    simpa using hend
  next hend =>
  split at h
  · -- A backslash, with the token after it.
    next hslash =>
    obtain ⟨_, _, ⟨⟩, h⟩ := bind_eq_some.mp h
    obtain ⟨_, _, ⟨⟩, h⟩ := bind_eq_some.mp h
    split at h
    · next hnext =>
      cases h
      exact .inr (.inr (.inl ⟨hslash, hnext, rfl, rfl⟩))
    · next hnext =>
      cases h
      exact .inr (.inr (.inr (.inl ⟨hslash, hnext, rfl, rfl⟩)))
  next hslash =>
  split at h
  · -- A star, with a value after it or without one.
    next hstar =>
    obtain ⟨c', _, hc', h⟩ := bind_eq_some.mp h
    cases h
    obtain ⟨part, hpart, rfl⟩ | ⟨hnone, rfl, rfl⟩ := starOrSplice_cases hc'
    · exact .inr (.inr (.inr (.inr (.inl ⟨hstar, part, hpart, rfl⟩))))
    · exact .inr (.inr (.inr (.inr (.inr ⟨hquote, hslash, fun _ => hnone, rfl, rfl⟩))))
  · next hstar =>
    cases h
    exact .inr (.inr (.inr (.inr (.inr ⟨hquote, hslash, fun hs => absurd hs hstar, rfl, rfl⟩))))

section Texts

variable (hg : g.Derives)
include hg

theorem splice_reads : (splice g).ReadsNode .part := by
  refine readsAs_eat fun a star hstar => ?_
  rw [hstar]
  exact follows_skip fun _ => (hg.expression false false).follows fun value => completes_node rfl

/-- What a token of a text line or of a quoted text adds to what has been read. -/
theorem readTo_spliced {c : Content} {part : TextPart} (hs : s.Placed) (hc : c.ReadTo a s.spot)
    (h : splice g s = (some part, s')) : ((c.flush s.position).add part).ReadTo a s'.spot :=
  hc.flushed.add (Content.flush_pending c _) (splice_reads hg hs h)

omit hg in
theorem readTo_escaped {c : Content} (hc : c.ReadTo a s.spot) (text : String) :
    ((c.flush s.position).extend s.advance.position text).ReadTo a s.advance.advance.spot := by
  have hflushed : (c.flush s.position).ReadTo a s.advance.spot :=
    hc.flushed.pass (Content.flush_pending c _) (State.passes_advance s)
  exact hflushed.extend (State.passes_advance s.advance) text

theorem textContent_reads : (textContent g).ReadsAs partComponents := by
  intro s hs parts s' h
  -- The invariant: what is complete has been read, and what is pending starts where the last part ends.
  refine repeated_induction (I := fun c t => c.ReadTo s.spot t.spot)
    (P := fun parts t => Reads s.spot (partComponents parts) t.spot) ?_ ?_ hs (.refl _) h
  · -- A round that goes on: the four kinds of tokens inside a line.
    intro c t c' t' ht hc hround
    obtain ⟨-, -, ⟨⟩⟩ | ⟨-, -, rfl, ⟨⟩⟩ | ⟨-, -, rfl, ⟨⟩⟩ | ⟨-, part, hpart, ⟨⟩⟩ |
      ⟨-, -, -, rfl, ⟨⟩⟩ := textRound_cases hround
    · exact hc.flushed.pass (Content.flush_pending c _) (State.passes_advance t)
    · exact readTo_escaped hc _
    · exact readTo_spliced hg ht hc hpart
    · exact hc.extend (State.passes_advance t) _
  · intro c t parts t' ht hc hround
    obtain ⟨-, rfl, ⟨⟩⟩ | ⟨-, -, -, ⟨⟩⟩ | ⟨-, -, -, ⟨⟩⟩ | ⟨-, _, -, ⟨⟩⟩ | ⟨-, -, -, -, ⟨⟩⟩ :=
      textRound_cases hround
    exact hc.flush

theorem quoted_reads (quote : TokenKind) : (quoted g quote).ReadsAs fun r => partComponents r.1 := by
  refine readsAs_skip fun opening => ?_
  intro s hs r s' h
  refine repeated_induction (I := fun c t => c.ReadTo s.spot t.spot)
    (P := fun r t => Reads s.spot (partComponents r.1) t.spot) ?_ ?_ hs (.refl _) h
  · intro c t c' t' ht hc hround
    obtain ⟨-, -, ⟨⟩⟩ | ⟨-, -, ⟨⟩⟩ | ⟨-, -, rfl, ⟨⟩⟩ | ⟨-, -, rfl, ⟨⟩⟩ | ⟨-, part, hpart, ⟨⟩⟩ |
      ⟨-, -, -, rfl, ⟨⟩⟩ := quotedRound_cases hround
    · exact readTo_escaped hc _
    · exact hc.extend ((State.passes_advance t).trans (State.passes_advance t.advance)) _
    · exact readTo_spliced hg ht hc hpart
    · exact hc.extend (State.passes_advance t) _
  · intro c t r t' ht hc hround
    obtain ⟨-, rfl, ⟨⟩⟩ | ⟨-, rfl, ⟨⟩⟩ | ⟨-, -, -, ⟨⟩⟩ | ⟨-, -, -, ⟨⟩⟩ | ⟨-, _, -, ⟨⟩⟩ |
      ⟨-, -, -, -, ⟨⟩⟩ := quotedRound_cases hround
    · exact Reads.pass hc.flush (State.passes_advance t)
    · exact hc.flush

end Texts

/-! ### Pieces of lines -/

/-- The value that something may have. -/
def valueComponents (value : Option Expression) : List Component :=
  (value.toList.map Node.expression).map .node

/-- Something is missing here. -/
theorem reads_missing (s : State) : Reads s.spot [.node (.expression (.missing s.here))] s.spot :=
  .framed rfl (.refl _)

theorem reads_missing_statement (s : State) :
    Reads s.spot [.node (.statement (.missing s.here))] s.spot :=
  .framed rfl (.refl _)

theorem indentation_reads : indentation.ReadsAs fun indent => [.mark indent.span] := by
  intro s hs indent s' h
  cases h
  exact .mark (State.passes_skipWhile _ s)

instance (seen : List String) (tags : List Tag) : Quiet (reportDuplicates seen tags) := by
  induction tags generalizing seen with
  | nil =>
    unfold reportDuplicates
    infer_instance
  | cons t tags ih =>
    cases t
    unfold reportDuplicates
    infer_instance

instance : Quiet lineEnds := by unfold lineEnds; infer_instance

instance : Quiet lineEnd := by unfold lineEnd; infer_instance

instance : Quiet finishLine := by unfold finishLine; infer_instance

instance : FailsQuietly (line g) := by unfold line; infer_instance

instance : FailsQuietly (block g multiline) := by unfold block; infer_instance

theorem templateEnd_closes {closing : Span} (hs : s.Placed) (h : templateEnd s = (some closing, s')) :
    s.spot.Closes (some closing) s'.spot := by
  obtain ⟨_, t, ht, h⟩ := bind_eq_some.mp h
  obtain ⟨_, u, hu, h⟩ := bind_eq_some.mp h
  obtain ⟨_, v, hv, h⟩ := bind_eq_some.mp h
  obtain ⟨brace, _, hbrace, ⟨⟩⟩ := bind_eq_some.mp h
  -- The closing bracket is the last token; what comes before it is passed over.
  have hvs : v.Placed :=
    ((hs.extended (extends_of_eq ht)).extended (extends_of_eq hu)).extended (extends_of_eq hv)
  have hpass : s.spot.Passes v.spot :=
    ((Quiet.passes ht).trans (Quiet.passes hu)).trans (Quiet.passes hv)
  obtain ⟨-, rfl, rfl⟩ := eat_eq_some.mp hbrace
  exact ⟨v.spot, hpass, State.passes_advance v, hvs.span_current⟩

/-- Read a component if it is there, and pass over a token if nothing was read. -/
theorem follows_withProgress {p : Parser α} [FailsQuietly p] {f : α → List Component}
    {cs : List Component} {Q : β → State → Prop} {k : Option α → Parser β} (hp : p.ReadsAs f)
    (hsome : ∀ x, Follows a (cs ++ f x) (k (some x)) Q) (hnone : Follows a cs (k none) Q) :
    Follows a cs (withProgress p >>= k) Q := by
  intro s y s' hs hr h
  obtain ⟨r, t, hp', h⟩ := bind_eq_some.mp h
  obtain ⟨before, _, ⟨⟩, hp'⟩ := bind_eq_some.mp hp'
  obtain ⟨r', u, hfound, hp'⟩ := bind_eq_some.mp hp'
  -- Whether a token is passed over or not, nothing is made of it.
  have hlast : u.spot.Passes t.spot ∧ r = r' := by
    obtain ⟨after, _, ⟨⟩, hp'⟩ := bind_eq_some.mp hp'
    split at hp'
    · obtain ⟨_, v, hv, ⟨⟩⟩ := bind_eq_some.mp hp'
      exact ⟨Quiet.passes hv, rfl⟩
    · cases hp'
      exact ⟨.refl _, rfl⟩
  obtain ⟨hpass, rfl⟩ := hlast
  have ht : t.Placed := (hs.extended (extends_of_eq hfound)).extended (extends_of_eq hp')
  have hfound := found_eq_some.mp hfound
  cases r with
  | none => exact hnone ht (hr.pass ((FailsQuietly.passes hfound).trans hpass)) h
  | some x => exact hsome x ht ((hr.append (hp hs hfound)).pass hpass) h

section Lines

variable (hg : g.Derives)
include hg

theorem objectKey_reads : (objectKey g).ReadsNode .key := by
  refine readsAs_look fun s hs => ?_
  split
  · exact readsAt_require fun _ => readsAt_token hs rfl
  · refine Completes.readsAt hs (follows_skip fun _ => (quoted_reads hg _).follows ?_)
    rintro ⟨parts, closing⟩
    exact completes_node rfl

theorem prototype_reads : (prototype g).ReadsNode .prototype := by
  refine readsAs_position fun a => follows_skip fun colon => follows_ite (fun _ => ?_) fun _ => ?_
  · exact follows_skip fun _ => (hg.expression false false).follows fun value => completes_node_skip rfl
  · exact follows_pure fun s _ hr => .plain ⟨rfl, rfl, fun _ => trivial⟩ (fun _ h => nomatch h) hr

theorem tagValue_reads : (tagValue g).ReadsAs valueComponents := by
  refine readsAs_of_completes fun a => follows_skip fun equals => follows_ite (fun _ => ?_) fun _ => ?_
  · refine follows_skip fun _ => ?_
    refine (hg.expression false true).follows fun value => ?_
    refine follows_skip fun _ => ?_
    exact follows_pure fun _ _ hr => hr
  · exact follows_pure fun _ _ hr => hr

theorem tag_reads : (tag g).ReadsNode .tag := by
  refine readsAs_eat fun a opening hopening => ?_
  rw [hopening]
  refine follows_skip fun _ => follows_skip fun name => follows_skip fun _ => ?_
  refine follows_skip fun _ => ?_
  exact (tagValue_reads hg).follows fun value => follows_skip fun _ => completes_node rfl

theorem tags_reads : (tags g).ReadsAs fun ts => (ts.map Node.tag).map .node := by
  refine readsAs_of_completes fun a => follows_repeated
    (I := fun ts => (ts.reverse.map Node.tag).map .node) (fun ts => ?_) rfl
  refine follows_skip fun s => follows_ite (fun _ => ?_) fun _ => ?_
  · refine (tag_reads hg).follows fun t => follows_skip fun _ => follows_pure fun u _ hr => ?_
    change Reads a (((t :: ts).reverse.map Node.tag).map .node) u.spot
    simpa using hr
  · exact follows_pure fun _ _ hr => hr

theorem initializer_reads : (initializer g).ReadsAs valueComponents := by
  refine readsAs_of_completes fun a => follows_skip fun s => follows_ite (fun _ => ?_) fun _ => ?_
  · refine follows_skip fun _ => follows_skip fun _ => ?_
    refine (hg.expression false true).follows fun value => ?_
    exact follows_pure fun _ _ hr => hr
  · exact follows_pure fun _ _ hr => hr

/-! ### Blocks of code -/

theorem codeBlock_reads (isScoped : Bool) : (codeBlock g isScoped).ReadsNode .block := by
  have hlist : (bracketed statementList fun _ => g.statement true).ReadsAs
      fun r => [.list r.1 (r.2.map .statement)] := bracketed_reads fun _ => hg.statement true
  cases isScoped with
  | false =>
    refine readsAs_position fun a => hlist.follows ?_
    rintro ⟨brackets, statements⟩
    exact completes_node rfl
  | true =>
    intro s hs block s' h
    obtain ⟨start, _, ⟨⟩, h⟩ := bind_eq_some.mp h
    obtain ⟨⟨brackets, statements⟩, t, hscope, ⟨⟩⟩ := bind_eq_some.mp h
    -- What the statements make known is forgotten at the closing brace.
    obtain ⟨u, hu, rfl⟩ := inScope_eq_some.mp hscope
    refine Reads.scope (c := u.spot) rfl rfl trivial ?_ (hlist hs hu)
    rintro span ⟨⟩
    rfl

/-! ### The six kinds of lines -/

theorem codeBlock_reads_statement (isScoped : Bool) :
    (codeBlock g isScoped).ReadsNode fun b => .statement (.block b) := by
  intro s hs b s' h
  have hblock := codeBlock_reads hg isScoped hs h
  exact Reads.wrap (n := .block b) ⟨rfl, rfl, fun _ => trivial⟩ rfl rfl hblock

theorem codeBlockLine_reads : (codeBlockLine g).ReadsNode .line := by
  refine readsAs_position fun a => ?_
  refine indentation_reads.follows fun indent => ?_
  refine follows_skip fun _ => ?_
  exact (codeBlock_reads_statement hg false).follows fun block => completes_node_skip rfl

theorem expectStatement_reads : (expectStatement g).ReadsNode .statement := by
  have hfails : FailsQuietly (g.statement false) := hg.statementFails false
  refine readsAs_of_completes fun a => (hg.statement false).follows_found (fun statement => ?_) ?_
  · exact follows_pure fun _ _ hr => hr
  · refine follows_skip fun _ => ?_
    intro s x s' hs hr h
    cases h
    exact (hr.append (reads_missing_statement s)).pass (State.passes_skipWhile _ s)

theorem statementLine_reads : (statementLine g).ReadsNode .line := by
  refine readsAs_position fun a => indentation_reads.follows fun indent => ?_
  refine follows_skip fun _ => follows_skip fun _ => follows_skip fun _ => ?_
  exact (expectStatement_reads hg).follows fun statement => completes_node_skip rfl

omit hg in
theorem commentLine_reads : commentLine.ReadsNode .line := by
  refine readsAs_position fun a => indentation_reads.follows fun indent => ?_
  refine follows_skip fun _ => follows_skip fun _ => follows_skip fun text => ?_
  refine follows_skip fun _ => ?_
  exact completes_node_skip rfl

theorem textLine_reads : (textLine g).ReadsNode .line := by
  refine readsAs_position fun a => ?_
  refine indentation_reads.follows fun indent => ?_
  refine follows_skip fun _ => ?_
  exact (textContent_reads hg).follows fun parts => completes_node_skip rfl

theorem deleteLine_reads : (deleteLine g).ReadsNode .line := by
  refine readsAs_position fun a => indentation_reads.follows fun indent => ?_
  -- The line without its indentation starts at the keyword.
  refine follows_eatWord fun b keyword hindent hkeyword => ?_
  rw [hkeyword]
  refine follows_skip fun _ => (objectKey_reads hg).follows fun name => ?_
  exact follows_inner [.key name] hindent rfl fun body => completes_node_skip rfl

theorem objectLine_reads : (objectLine g).ReadsNode .line := by
  refine readsAs_position fun a => indentation_reads.follows fun indent => ?_
  refine follows_position fun b hindent => (objectKey_reads hg).follows fun name => ?_
  refine follows_skip fun _ => (prototype_reads hg).follows fun proto => ?_
  refine (tags_reads hg).follows fun tags => follows_skip fun _ => ?_
  refine (initializer_reads hg).follows fun value => ?_
  refine follows_inner (.key name :: .prototype proto :: (tags.map .tag ++ value.toList.map .expression))
    hindent ?_ fun body => completes_node_skip rfl
  simp [valueComponents]

theorem line_reads : (line g).ReadsNode .line :=
  ((codeBlockLine_reads hg).orElse <| (deleteLine_reads hg).orElse <| (objectLine_reads hg).orElse <|
    (statementLine_reads hg).orElse <| commentLine_reads.orElse <| textLine_reads hg).rewind

/-! ### Blocks of lines -/

theorem templateRound_follows (opening : Span) (lines : List Line) :
    Follows a ((lines.reverse.map Node.line).map .node) (templateRound g opening lines)
      (Round.Post a (fun lines => (lines.reverse.map Node.line).map .node) (ListRead .line a)) := by
  unfold templateRound
  refine follows_skip fun eof => follows_ite (fun _ => follows_skip fun _ => ?_) fun _ => ?_
  · exact follows_pure fun s _ hr => ⟨s.spot, hr, .refl _⟩
  · intro s r s' hs hr h
    obtain ⟨closing, t, hclosing, hround⟩ := bind_eq_some.mp h
    obtain ⟨span, rfl, hspan⟩ | ⟨rfl, -, rfl⟩ := attempt_eq_some.mp hclosing
    · -- The block ends here.
      cases hround
      exact ⟨s.spot, hr, templateEnd_closes hs hspan⟩
    · -- One more line, or a token that starts none.
      refine follows_withProgress (line_reads hg) (fun l => ?_) ?_ hs hr hround
      · refine follows_pure fun u _ hr => ?_
        change Reads a (((l :: lines).reverse.map Node.line).map .node) u.spot
        simpa using hr
      · exact follows_pure fun _ _ hr => hr

theorem templateBlock_reads : (templateBlock g).ReadsNode .block := by
  intro s hs block s' h
  obtain ⟨opening, t, hopening, h⟩ := bind_eq_some.mp h
  obtain ⟨_, u, hu, h⟩ := bind_eq_some.mp h
  obtain ⟨_, v, hv, h⟩ := bind_eq_some.mp h
  obtain ⟨⟨lines, closing⟩, w, hlines, ⟨⟩⟩ := bind_eq_some.mp h
  obtain ⟨x, hx, rfl⟩ := inScope_eq_some.mp hlines
  obtain ⟨y, hy, rfl⟩ := inBlock_eq_some.mp hx
  have hplaced : ({ v with blocks := v.blocks + 1 } : State).Placed :=
    { ((hs.extended (extends_of_eq hopening)).extended (extends_of_eq hu)).extended (extends_of_eq hv)
      with }
  obtain ⟨-, rfl, rfl⟩ := eat_eq_some.mp hopening
  have hpass : s.advance.spot.Passes v.spot := (Quiet.passes hu).trans (Quiet.passes hv)
  have hlocals : v.locals = s.locals := ((State.passes_advance s).trans hpass).locals
  obtain ⟨c, hitems, hclose⟩ :=
    follows_repeated (templateRound_follows hg _) rfl hplaced (.gap hpass) hy
  -- What the lines make known is forgotten at the closing brace.
  have hnode : Reads s.spot
      [.node (.block (.template ⟨s.position, y.position⟩ ⟨s.current.span, closing⟩ lines))]
      (y.spot.knowing s.spot.locals) := by
    refine .scope rfl rfl trivial ?_ ?_
    · rintro span ⟨⟩
      rfl
    · rw [hs.span_current]
      exact .list (State.passes_advance s) hitems hclose
  change Reads _ _ (y.spot.knowing v.locals)
  rw [hlocals]
  exact hnode

end Lines

section Blocks

variable (hg : g.Derives)
include hg

theorem block_reads : (block g multiline).ReadsNode .block := by
  refine ReadsAs.rewind (readsAs_skip fun _ => readsAs_skip fun s => readsAs_skip fun _ => ?_)
  exact readsAs_ite (fun _ => templateBlock_reads hg) fun _ => codeBlock_reads hg true

theorem block_reads_statement : (block g multiline).ReadsNode fun b => .statement (.block b) := by
  intro s hs b s' h
  have hblock := block_reads hg hs h
  exact Reads.wrap (n := .block b) ⟨rfl, rfl, fun _ => trivial⟩ rfl rfl hblock

end Blocks

/-! ### Names and numbers -/

/-- A name is told apart by what is known where it stands. -/
theorem reads_resolve (hs : s.Placed) (hword : s.kind = .word) :
    Reads s.spot [.node (.expression (resolve s s.current))] s.advance.spot := by
  refine .node (c := s.advance.spot) ?_ rfl ?_ (.gap (State.passes_advance s))
  · rintro span ⟨⟩
    exact hs.span_current
  · exact .inr ⟨hword, rfl, rfl⟩

theorem rawName_reads : rawName.ReadsNode .expression := by
  intro s hs e s' h
  obtain ⟨start, _, ⟨⟩, h⟩ := bind_eq_some.mp h
  obtain ⟨_, t, hsign, h⟩ := bind_eq_some.mp h
  obtain ⟨name, u, hname, h⟩ := bind_eq_some.mp h
  obtain ⟨_, v, hv, ⟨⟩⟩ := bind_eq_some.mp h
  have hpass : s.spot.Passes s'.spot :=
    ((Quiet.passes hsign).trans (Quiet.passes hname)).trans (Quiet.passes hv)
  refine .node (c := s'.spot) ?_ rfl ?_ (.gap hpass)
  · rintro span ⟨⟩
    rfl
  · exact .inl ⟨(eat_eq_some.mp hsign).1, rfl⟩

theorem number_reads : number.ReadsNode .expression :=
  readsAs_state fun _ hs => Completes.readsAt hs (follows_skip fun _ => completes_node rfl)

instance (kind : TokenKind) : Quiet (eatsAhead kind multiline) := by unfold eatsAhead; infer_instance

section Expressions

variable (hg : g.Derives)
include hg

theorem stringLiteral_reads (quote : Quote) : (stringLiteral g quote).ReadsNode .expression := by
  refine readsAs_look fun s hs => Completes.readsAt hs ((quoted_reads hg _).follows ?_)
  rintro ⟨parts, closing⟩
  exact completes_node rfl

/-! ### Lists -/

theorem element_reads : (element g multiline).ReadsNode .expression := by
  refine readsAs_state fun s hs => ?_
  split
  · exact Completes.readsAt hs (follows_skip fun _ => (hg.expression multiline true).follows fun inner =>
      completes_node rfl)
  · exact hg.expression multiline true hs

theorem arguments_reads :
    (arguments g multiline).ReadsAs fun r => [.list r.1 (r.2.map .expression)] :=
  bracketed_reads fun _ => element_reads hg

theorem arrayLiteral_reads : (arrayLiteral g multiline).ReadsNode .expression := by
  have hlist : (bracketed (bracketList multiline) fun _ => element g multiline).ReadsAs
      fun r => [.list r.1 (r.2.map .expression)] := bracketed_reads fun _ => element_reads hg
  refine readsAs_position fun a => hlist.follows ?_
  rintro ⟨brackets, elements⟩
  exact completes_node rfl

omit hg in
theorem missingHere_reads : missingHere.ReadsNode .expression := by
  refine readsAs_skip fun _ => ?_
  intro s hs e s' h
  cases h
  exact reads_missing s

theorem expectExpression_reads : (expectExpression g multiline).ReadsNode .expression := by
  have hfails : FailsQuietly (g.expression multiline true) := hg.expressionFails multiline true
  refine readsAs_of_completes fun a => (hg.expression multiline true).follows_found (fun value => ?_) ?_
  · exact follows_pure fun _ _ hr => hr
  · exact fun s x s' hs hr h => hr.append (missingHere_reads hs h)

theorem propertyValue_reads : (propertyValue g multiline none).ReadsNode .expression := by
  refine readsAs_skip fun colon => readsAs_ite (fun _ => ?_) fun _ => readsAs_skip fun _ => ?_
  · exact readsAs_skip fun _ => expectExpression_reads hg
  · intro s hs e s' h
    cases h
    exact reads_missing s

/-- A member without a value has the value of its name, which has been read by then. -/
theorem propertyValue_shorthand {shorthand e : Expression} (hs : s.Placed)
    (h : propertyValue g multiline (some shorthand) s = (some e, s')) :
    Reads s.spot [.node (.expression e)] s'.spot ∨ (e = shorthand ∧ s.spot.Passes s'.spot) := by
  obtain ⟨colon, t, hcolon, h⟩ := bind_eq_some.mp h
  have hpass : s.spot.Passes t.spot := Quiet.passes hcolon
  have ht : t.Placed := hs.extended (extends_of_eq hcolon)
  split at h
  · have hvalue : (do trivia multiline; expectExpression g multiline).ReadsNode .expression :=
      readsAs_skip fun _ => expectExpression_reads hg
    exact .inl (.after hpass (hvalue ht h))
  · cases h
    exact .inr ⟨rfl, hpass⟩

theorem wordProperty_reads (hs : s.Placed) (hword : s.kind = .word) :
    (wordProperty g multiline s.current).ReadsAt s fun p => [.node (.property p)] := by
  unfold wordProperty
  split
  · exact Completes.readsAt hs (follows_skip fun _ => (propertyValue_reads hg).follows fun value =>
      completes_node rfl)
  · refine readsAt_require fun _ => ?_
    intro p s' h
    rw [state_bind_run, change_bind_run] at h
    obtain ⟨value, t, hvalue, h⟩ := bind_eq_some.mp h
    have hadvanced : s.advance.Placed := hs.extended (State.extends_advance s)
    have hreads : Reads s.spot [.node (.expression value)] t.spot := by
      split at hvalue
      · exact .after (State.passes_advance s) (propertyValue_reads hg hadvanced hvalue)
      · -- Without a value of its own, the member has the value of its name.
        obtain hreads | ⟨rfl, hpass⟩ := propertyValue_shorthand hg hadvanced hvalue
        · exact .after (State.passes_advance s) hreads
        · exact (reads_resolve hs hword).pass hpass
    have ht : t.Placed := hadvanced.extended (extends_of_eq hvalue)
    exact Follows.run (a := s.spot) (completes_node rfl) ht hreads h

theorem quotedProperty_reads (hs : s.Placed) (quote : Quote) :
    (quotedProperty g multiline s.current quote).ReadsAt s fun p => [.node (.property p)] := by
  refine Completes.readsAt hs ((quoted_reads hg _).follows ?_)
  rintro ⟨parts, closing⟩
  refine follows_inner (parts.map .part) (.refl s.spot) rfl fun name => ?_
  exact (propertyValue_reads hg).follows fun value => completes_node rfl

theorem computedProperty_reads : (computedProperty g multiline).ReadsNode .property := by
  refine readsAs_position fun a => ?_
  refine follows_skip fun _ => follows_skip fun _ => ?_
  refine (hg.expression true true).follows fun name => ?_
  refine follows_skip fun _ => follows_skip fun _ => ?_
  exact (propertyValue_reads hg).follows fun value => completes_node rfl

theorem property_reads : (property g multiline).ReadsNode .property := by
  refine readsAs_state fun s hs => ?_
  split
  · exact Completes.readsAt hs ((element_reads hg).follows fun value => completes_node rfl)
  · split
    · next hword => exact wordProperty_reads hg hs hword
    · exact quotedProperty_reads hg hs .single
    · exact quotedProperty_reads hg hs .double
    · exact computedProperty_reads hg hs
    · exact readsAs_fail hs

theorem objectLiteral_reads : (objectLiteral g multiline).ReadsNode .expression := by
  have hlist : (bracketed (braceList multiline) fun _ => property g multiline).ReadsAs
      fun r => [.list r.1 (r.2.map .property)] := bracketed_reads fun _ => property_reads hg
  refine readsAs_position fun a => hlist.follows ?_
  rintro ⟨brackets, properties⟩
  exact completes_node rfl

theorem parenExpression_reads : (parenExpression g).ReadsNode .expression := by
  refine readsAs_position fun a => ?_
  refine follows_skip fun _ => follows_skip fun _ => ?_
  refine (expectExpression_reads hg).follows fun inner => ?_
  refine follows_skip fun _ => follows_skip fun _ => ?_
  exact completes_node rfl

end Expressions

/-! ### Functions -/

/-- The name of a function is known from its parameters on. -/
theorem functionName_passes {name : Option String} (h : functionName s = (some name, s')) :
    (s.spot.knowing (name.toList ++ s.locals)).Passes s'.spot := by
  unfold functionName at h
  rw [look_bind_run] at h
  split at h
  · rw [change_bind_run] at h
    have hpass := State.passes_advance s
    -- A word that may not be a name is passed over, and none becomes known.
    split at h
    · cases h
      exact State.passes_declare hpass _
    · cases h
      exact hpass
  · cases h
    exact .refl _

section Functions

variable (hg : g.Derives)
include hg

theorem parameter_reads : (parameter g multiline).ReadsNode .parameter := by
  have hdefault : (parameterDefault g multiline).ReadsNode .expression := by
    refine readsAs_skip fun _ => ?_
    refine readsAs_skip fun _ => ?_
    refine readsAs_skip fun _ => ?_
    exact hg.expression multiline true
  -- The name becomes known after the default value has been read.
  have hend {a : Spot} {name : String} {isRest : Bool} (value : Option Expression) :
      Completes a (valueComponents value) (do
        declare name
        return Parameter.named (← spanFrom a.position) name isRest value)
        fun p => [.node (.parameter p)] := by
    intro s p s' hs hr h
    cases h
    refine .node (c := s.spot) ?_ rfl trivial hr
    rintro span ⟨⟩
    rfl
  refine readsAs_state fun s hs => Completes.readsAt hs ?_
  refine follows_ite (fun _ => follows_skip fun _ => ?_) fun _ => ?_
  all_goals
    refine follows_skip fun _ => follows_skip fun name => follows_skip fun _ => ?_
    exact hdefault.follows_attempt (fun value => hend (some value)) (hend none)

theorem parameters_reads :
    (parameters g multiline).ReadsAs fun r => [.list r.1 (r.2.map .parameter)] :=
  bracketed_reads fun _ => parameter_reads hg

theorem functionExpression_reads {isAsync : Bool} {e : Expression} (hs : s.Placed) (ha : a.Passes s.spot)
    (h : functionExpression g a.position isAsync multiline s = (some e, s')) :
    Reads a [.node (.expression e)] s'.spot := by
  obtain ⟨_, s₁, h₁, h⟩ := bind_eq_some.mp h
  obtain ⟨_, s₂, h₂, h⟩ := bind_eq_some.mp h
  obtain ⟨isGenerator, s₃, h₃, h⟩ := bind_eq_some.mp h
  obtain ⟨_, t, h₄, h⟩ := bind_eq_some.mp h
  have hpass : a.Passes t.spot := ha.trans <| (Quiet.passes h₁).trans <| (Quiet.passes h₂).trans <|
    (Quiet.passes h₃).trans (Quiet.passes h₄)
  have ht : t.Placed := hs.extended <| (extends_of_eq h₁).trans <| (extends_of_eq h₂).trans <|
    (extends_of_eq h₃).trans (extends_of_eq h₄)
  obtain ⟨⟨name, ⟨brackets, params⟩, body⟩, w, hscope, ⟨⟩⟩ := bind_eq_some.mp h
  obtain ⟨v, hv, rfl⟩ := inScope_eq_some.mp hscope
  obtain ⟨name', u, hname, hv⟩ := bind_eq_some.mp hv
  have hu : u.Placed := ht.extended (extends_of_eq hname)
  -- What is inside starts with the name known, on top of what is known around it.
  have hentered : (a.knowing (name'.toList ++ a.locals)).Passes u.spot := by
    rw [← hpass.locals]
    exact (hpass.knowing _).trans (functionName_passes hname)
  have hinside : Follows (a.knowing (name'.toList ++ a.locals)) [] (do
      let _ ← blanks
      let params ← parameters g multiline
      let body ← block g multiline
      return (name', params, body)) fun r t' => Reads (a.knowing (r.1.toList ++ a.locals))
        [.list r.2.1.1 (r.2.1.2.map .parameter), .node (.block r.2.2)] t'.spot := by
    refine follows_skip fun _ => ?_
    refine (parameters_reads hg).follows fun params => ?_
    refine (block_reads hg).follows fun body => ?_
    exact follows_pure fun _ _ hr => hr
  have hreads := hinside hu (.gap hentered) hv
  have hnode : Reads a [.node (.expression
      (.function ⟨a.position, v.position⟩ name isAsync isGenerator brackets params body))]
      (v.spot.knowing a.locals) := by
    refine .node (c := v.spot) ?_ rfl trivial hreads
    rintro span ⟨⟩
    rfl
  change Reads _ _ (v.spot.knowing t.spot.locals)
  rw [hpass.locals]
  exact hnode

theorem arrowParameters_reads :
    (arrowParameters g multiline).ReadsAs fun r => [.list r.1 (r.2.map .parameter)] := by
  refine readsAs_state fun s hs => ?_
  split
  · refine Completes.readsAt hs ((parameters_reads hg).follows ?_)
    rintro ⟨brackets, params⟩
    exact follows_skip fun _ => follows_pure fun _ _ hr => hr
  · -- A single name stands for the list of it.
    intro r s' h
    obtain ⟨name, t, hname, h⟩ := bind_eq_some.mp h
    obtain ⟨_, u, hu, ⟨⟩⟩ := bind_eq_some.mp h
    obtain ⟨-, rfl⟩ := require_eq_some.mp hu
    obtain ⟨-, rfl, rfl⟩ := eat_eq_some.mp hname
    have hnode : Reads s.spot
        [.node (.parameter (.named s.current.span s.current.text false none))]
        (s.advance.declare s.current.text).spot := by
      refine .node (c := s.advance.spot) ?_ rfl trivial (.gap (State.passes_advance s))
      rintro span ⟨⟩
      exact hs.span_current
    have hlone := hnode.lone
    rw [hs.span_current] at hlone ⊢
    exact hlone

theorem arrowFunction_reads {isAsync : Bool} {e : Expression} (hs : s.Placed) (ha : a.Passes s.spot)
    (h : arrowFunction g a.position isAsync multiline s = (some e, s')) :
    Reads a [.node (.expression e)] s'.spot := by
  obtain ⟨t, ht, rfl⟩ := inScope_eq_some.mp h
  -- Before the scope is closed the function has been read, with what it makes known.
  have hnode : Reads a [.node (.expression e)] (t.spot.knowing a.locals) := by
    refine Follows.run (Q := fun e t => Reads a [.node (.expression e)] (t.spot.knowing a.locals)) ?_ hs
      (.gap ha) ht
    refine (arrowParameters_reads hg).follows ?_
    rintro ⟨brackets, params⟩
    refine follows_skip fun _ => follows_skip fun _ => follows_skip fun _ => ?_
    refine (block_reads hg).follows_found (fun body => ?_) (follows_skip fun _ => ?_)
    · intro u e u' hu hr h
      cases h
      refine .scope rfl rfl trivial ?_ hr
      rintro span ⟨⟩
      rfl
    · refine (expectExpression_reads hg).follows fun body => ?_
      intro u e u' hu hr h
      cases h
      refine .scope rfl rfl trivial ?_ hr
      rintro span ⟨⟩
      rfl
  change Reads _ _ (t.spot.knowing s.spot.locals)
  rw [ha.locals]
  exact hnode

theorem asyncFunction_reads : (asyncFunction g multiline).ReadsNode .expression := by
  refine ReadsAs.rewind ?_
  intro s hs e s' h
  obtain ⟨start, _, ⟨⟩, h⟩ := bind_eq_some.mp h
  obtain ⟨_, t, ht, h⟩ := bind_eq_some.mp h
  obtain ⟨_, u, hu, h⟩ := bind_eq_some.mp h
  have hplaced : u.Placed := (hs.extended (extends_of_eq ht)).extended (extends_of_eq hu)
  have hpass : s.spot.Passes u.spot := (Quiet.passes ht).trans (Quiet.passes hu)
  rw [state_bind_run] at h
  split at h
  · exact functionExpression_reads hg hplaced hpass h
  · exact arrowFunction_reads hg hplaced hpass h

end Functions

/-! ### Operands -/

instance : Quiet updateOperator := by
  unfold updateOperator
  refine @quiet_bind _ _ _ _ _ fun s => ?_
  split <;> infer_instance

section Operands

variable (hg : g.Derives)
include hg

theorem wordOperand_reads (hs : s.Placed) (hword : s.kind = .word) :
    (wordOperand g multiline).ReadsAt s fun e => [.node (.expression e)] := by
  refine readsAt_state ?_
  dsimp only
  -- A number, a truth value, a keyword, a function; and last a name.
  split
  · exact number_reads hs
  split
  · exact readsAt_token hs rfl
  split
  · exact readsAt_token hs rfl
  split
  · exact fun _ _ h => functionExpression_reads hg hs (.refl _) h
  split
  · exact asyncFunction_reads hg hs
  · refine readsAt_require fun _ => ReadsAt.orElse ?_ ?_
    · exact fun _ _ h => arrowFunction_reads hg hs (.refl _) h
    · intro e s' h
      cases h
      exact reads_resolve hs hword

theorem plainOperand_reads : (plainOperand g multiline).ReadsNode .expression := by
  refine readsAs_state fun s hs => ?_
  split
  · next hword => exact wordOperand_reads hg hs hword
  · exact readsAt_require fun _ => number_reads hs
  · exact rawName_reads hs
  · exact stringLiteral_reads hg .single hs
  · exact stringLiteral_reads hg .double hs
  · exact stringLiteral_reads hg .backtick hs
  · refine ReadsAt.orElse ?_ (parenExpression_reads hg hs)
    exact fun _ _ h => arrowFunction_reads hg hs (.refl _) h
  · exact arrayLiteral_reads hg hs
  · exact objectLiteral_reads hg hs
  · exact readsAs_fail hs

omit hg in
theorem memberName_completes (object : Expression) (isOptional : Bool) :
    Completes a [.node (.expression object)] (memberName object a.position isOptional)
      fun e => [.node (.expression e)] :=
  follows_skip fun _ => follows_skip fun _ => completes_node rfl

omit hg in
/-- Members on the way to what `new` makes. They start where their object does. -/
theorem newMembers_completes (callee : Expression) :
    Completes a [.node (.expression callee)] (repeated newMemberRound callee)
      fun e => [.node (.expression e)] := by
  refine follows_repeated (I := fun e => [.node (.expression e)]) (fun callee => ?_) rfl
  refine Completes.follows_attempt (f := fun e => [.node (.expression e)]) ?_ (fun e => ?_) ?_
  · intro s e s' hs hr h
    -- The object of the member was read from `b` on, and so is the member.
    obtain ⟨b, b', hb, hcallee, hspan, hb'⟩ := hr.node_cases
    have hstart : callee.span.start = b.position := congrArg Span.start (hspan callee.span rfl)
    have hmember : Completes b [.node (.expression callee)] (do
        let _ ← eat .dot
        memberName callee callee.span.start false) fun e => [.node (.expression e)] := by
      rw [hstart]
      exact follows_skip fun _ => memberName_completes callee false
    exact hb.append (hmember hs (hcallee.append hb') h)
  · exact follows_pure fun _ _ hr => hr
  · exact follows_pure fun _ _ hr => hr

theorem newTail_reads {callee e : Expression} (hs : s.Placed) (ha : a.Passes b)
    (hcallee : Reads b [.node (.expression callee)] s.spot)
    (h : newTail g multiline callee a.position s = (some e, s')) :
    Reads a [.node (.expression e)] s'.spot := by
  obtain ⟨callee', t, hmembers, h⟩ := bind_eq_some.mp h
  have hcallee' : Reads b [.node (.expression callee')] t.spot :=
    newMembers_completes callee hs hcallee hmembers
  have ht : t.Placed := hs.extended (extends_of_eq hmembers)
  have hquiet : FailsQuietly (arguments g multiline) := by unfold arguments; infer_instance
  refine Follows.run (Q := fun e t => Reads a [.node (.expression e)] t.spot) ?_ ht (.after ha hcallee') h
  refine (arguments_reads hg).follows_found ?_ (completes_node rfl)
  rintro ⟨brackets, items⟩
  exact completes_node rfl

/-- The places of several `new`, the latest first, on the way from `a` to `b`. -/
def Starts (a : Spot) : List Position → Spot → Prop
  | [], b => a.Passes b
  | p :: ps, b => ∃ m : Spot, Starts a ps m ∧ p = m.position ∧ m.Passes b

omit hg in
theorem newRounds_starts {starts : List Position} (hs : s.Placed)
    (h : repeated newRound [] s = (some starts, s')) : Starts s.spot starts s'.spot := by
  have hstart : Starts s.spot [] s.spot := Spot.Passes.refl _
  refine repeated_induction (I := fun ps t => Starts s.spot ps t.spot)
    (P := fun ps t => Starts s.spot ps t.spot) ?_ ?_ hs hstart h
  · -- Each `new` starts where the readers are, after those before it.
    intro ps t ps' t' ht hps hround
    obtain ⟨_, _, ⟨⟩, hround⟩ := bind_eq_some.mp hround
    split at hround
    · obtain ⟨_, u, hu, hround⟩ := bind_eq_some.mp hround
      obtain ⟨_, v, hv, ⟨⟩⟩ := bind_eq_some.mp hround
      exact ⟨t.spot, hps, rfl, (Quiet.passes hu).trans (Quiet.passes hv)⟩
    · cases hround
  · intro ps t r t' ht hps hround
    obtain ⟨_, _, ⟨⟩, hround⟩ := bind_eq_some.mp hround
    split at hround
    · obtain ⟨_, u, hu, hround⟩ := bind_eq_some.mp hround
      obtain ⟨_, v, hv, ⟨⟩⟩ := bind_eq_some.mp hround
    · cases hround
      exact hps

theorem newTails_reads {starts : List Position} {callee e : Expression} (hs : s.Placed)
    (hstarts : Starts a starts b) (hcallee : Reads b [.node (.expression callee)] s.spot)
    (h : starts.foldlM (newTail g multiline) callee s = (some e, s')) :
    Reads a [.node (.expression e)] s'.spot := by
  -- From the inside out: each `new` has what was read after it as its callee.
  induction starts generalizing callee s b with
  | nil =>
    cases h
    exact .after hstarts hcallee
  | cons p ps ih =>
    obtain ⟨m, hps, rfl, hm⟩ := hstarts
    obtain ⟨made, t, hmade, h⟩ := bind_eq_some.mp h
    exact ih (hs.extended (extends_of_eq hmade)) hps (newTail_reads hg hs hm hcallee hmade) h

theorem operand_reads : (operand g multiline).ReadsNode .expression := by
  intro s hs e s' h
  obtain ⟨starts, t, hstarts, h⟩ := bind_eq_some.mp h
  obtain ⟨callee, u, hcallee, h⟩ := bind_eq_some.mp h
  have ht : t.Placed := hs.extended (extends_of_eq hstarts)
  have hu : u.Placed := ht.extended (extends_of_eq hcallee)
  exact newTails_reads hg hu (newRounds_starts hs hstarts) (plainOperand_reads hg ht hcallee) h

theorem prefixed_reads : (prefixed g multiline).ReadsNode .expression := by
  -- What comes before the operand is passed over; the operand is read by the reader further in.
  have hupdate : (updateOperand g multiline).ReadsNode .expression := by
    refine readsAs_position fun _ => ?_
    refine follows_skip fun _ => ?_
    refine (hg.operand multiline).follows fun _ => ?_
    exact completes_node rfl
  have hunary (operator : UnaryOperator) : (unaryOperand g multiline operator).ReadsNode .expression := by
    refine readsAs_position fun _ => ?_
    refine follows_skip fun _ => follows_skip fun _ => ?_
    refine (hg.operand multiline).follows fun _ => ?_
    exact completes_node rfl
  have hword (operator : WordOperator) : (wordOperation g multiline operator).ReadsNode .expression := by
    refine readsAs_position fun _ => ?_
    refine follows_skip fun _ => follows_skip fun _ => follows_skip fun _ => ?_
    refine (hg.operand multiline).follows fun _ => ?_
    exact completes_node rfl
  have hvalue : (do
      let _ ← blanks
      g.expression multiline true).ReadsNode .expression :=
    readsAs_skip fun _ => hg.expression multiline true
  have hyield : (yieldOperand g multiline).ReadsNode .expression := by
    refine readsAs_position fun _ => ?_
    refine follows_skip fun _ => follows_skip fun _ => ?_
    exact hvalue.follows_attempt (fun _ => completes_node rfl) (completes_node rfl)
  refine readsAs_state fun s hs => ?_
  split
  · exact hupdate hs
  split
  · exact hunary _ hs
  split
  · exact hword _ hs
  split
  · exact hyield hs
  · exact operand_reads hg hs

end Operands

/-! ### Continuations -/

instance : Quiet eatsOptional := by unfold eatsOptional; infer_instance

section Continuations

variable (hg : g.Derives)
include hg

theorem attachment_completes (e : Expression) (isOptional : Bool) :
    Completes a [.node (.expression e)] (attachment g multiline a.position e isOptional)
      fun e => [.node (.expression e)] := by
  refine follows_skip fun kind => ?_
  split
  · exact follows_skip fun _ => follows_skip fun _ => memberName_completes e false
  · exact follows_skip fun _ => memberName_completes e true
  · refine (arguments_reads hg).follows ?_
    rintro ⟨brackets, items⟩
    exact completes_node rfl
  · refine follows_skip fun _ => follows_skip fun _ => ?_
    refine (expectExpression_reads hg).follows fun _ => ?_
    refine follows_skip fun _ => follows_skip fun _ => ?_
    exact completes_node rfl
  · exact follows_skip fun _ => follows_skip fun _ => completes_node rfl
  · exact follows_skip fun _ => follows_skip fun _ => completes_node rfl
  · exact follows_fail

theorem attached_completes (e : Expression) :
    Completes a [.node (.expression e)] (attached g multiline a.position e)
      fun e => [.node (.expression e)] :=
  follows_ite (fun _ => follows_skip fun _ => follows_skip fun _ => attachment_completes hg e _)
    fun _ => follows_skip fun _ => attachment_completes hg e _

theorem operated_completes (e : Expression) :
    Completes a [.node (.expression e)] (operated g multiline a.position e)
      fun e => [.node (.expression e)] := by
  refine follows_skip fun _ => follows_skip fun s => ?_
  split
  · exact follows_fail
  · refine follows_skip fun _ => follows_skip fun _ => ?_
    refine (prefixed_reads hg).follows fun right => ?_
    exact follows_ite (fun _ => follows_skip fun _ => completes_node rfl) fun _ => completes_node rfl

theorem otherwiseValue_reads : (otherwiseValue g multiline).ReadsNode .expression := by
  refine readsAs_skip fun colon => readsAs_ite (fun _ => ?_) fun _ => ?_
  · exact readsAs_skip fun _ => expectExpression_reads hg
  · intro s hs e s' h
    cases h
    exact reads_missing s

theorem conditional_completes (e : Expression) :
    Completes a [.node (.expression e)] (conditional g multiline a.position e)
      fun e => [.node (.expression e)] := by
  refine follows_skip fun _ => follows_skip fun _ => follows_skip fun _ => ?_
  refine follows_skip fun _ => ?_
  refine (hg.expression multiline true).follows fun whenTrue => follows_skip fun _ => ?_
  exact (otherwiseValue_reads hg).follows fun whenFalse => completes_node rfl

theorem expression_reads (binary : Bool) : (expression g multiline binary).ReadsNode .expression := by
  refine readsAs_position fun a => (prefixed_reads hg).follows fun first => ?_
  refine follows_repeated (I := fun e => [.node (.expression e)]) (fun e => ?_) rfl
  have hstep : Completes a [.node (.expression e)]
      (if binary then
        attached g multiline a.position e <|> operated g multiline a.position e <|>
          conditional g multiline a.position e
      else attached g multiline a.position e) fun e => [.node (.expression e)] :=
    follows_ite (fun _ => (attached_completes hg e).orElse <| (operated_completes hg e).orElse <|
      conditional_completes hg e) fun _ => attached_completes hg e
  -- A step further, or the expression as it is.
  refine hstep.follows_attempt (fun e' => ?_) ?_
  · exact follows_pure fun _ _ hr => hr
  · exact follows_pure fun _ _ hr => hr

end Continuations

end Grammar

end Story
