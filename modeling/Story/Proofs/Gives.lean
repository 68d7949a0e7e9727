import Story.Proofs.Outcomes

/-!
# What a parser gives

A small logic for statements about everything that is read. `p.Gives R φ` says that whatever `p` reads
satisfies `φ`, if it is read between two states that `R` relates. The relation is a `Passage`: what it
says of a whole way it says of every stretch of the way. So it can be assumed of each step of a parser,
and the rules are about values only: one rule for each combinator.

The passage that asks for least is `State.From`: reading starts somewhere in a given text, inside a given
number of blocks of lines. No parser leaves that text or these blocks.
-/

namespace Story

namespace State

/-- `o.Inside d s`: the state `s` is reached by reading on from `o`, inside `d` blocks of lines. -/
structure Inside (o : State) (d : Nat) (s : State) : Prop where
  rest : s.rest <:+ o.rest
  cursor : s.cursor + s.rest.length = o.cursor + o.rest.length
  finish : s.finish = o.finish
  indentSize : s.indentSize = o.indentSize
  blocks : s.blocks = d

namespace Inside

variable {o s t : State} {d : Nat}

theorem self (o : State) : o.Inside o.blocks o := ⟨List.suffix_rfl, rfl, rfl, rfl, rfl⟩

theorem extended (h : o.Inside d s) (h' : s.Extends t) : o.Inside d t where
  rest := h'.rest.trans h.rest
  cursor := h'.cursor.trans h.cursor
  finish := h'.finish.trans h.finish
  indentSize := h'.indentSize.trans h.indentSize
  blocks := h'.blocks.trans h.blocks

theorem inBlock (h : o.Inside d s) : o.Inside (d + 1) { s with blocks := s.blocks + 1 } :=
  { h with blocks := congrArg (· + 1) h.blocks }

theorem deeper (h : o.Inside d s) : o.Inside d { s with depth := s.depth + 1 } := { h with }

end Inside

/-- A relation between the state before and the state after that holds of both parts of a way if it holds
of the whole. -/
class Passage (R : State → State → Prop) : Prop where
  first {s t u : State} : R s u → s.Extends t → t.Extends u → R s t
  last {s t u : State} : R s u → s.Extends t → t.Extends u → R t u

/-- Reading from a state inside `d` blocks of the text that `o` stands before. -/
abbrev From (o : State) (d : Nat) (s _ : State) : Prop := o.Inside d s

instance (o : State) (d : Nat) : Passage (o.From d) where
  first h _ _ := h
  last h h' _ := h.extended h'

/-- Reading from anywhere to anywhere. -/
abbrev Anyhow (_ _ : State) : Prop := True

instance : Passage Anyhow where
  first _ _ _ := trivial
  last _ _ _ := trivial

end State

open State (Passage)

namespace Parser

variable {α β σ : Type} {R : State → State → Prop} {p q : Parser α} {φ : α → Prop}

/-- Whatever `p` reads between two states that `R` relates satisfies `φ`. -/
def Gives (R : State → State → Prop) (p : Parser α) (φ : α → Prop) : Prop :=
  ∀ ⦃s a s'⦄, R s s' → p s = (some a, s') → φ a

/-! ### Sequences -/

theorem gives_pure {a : α} (h : φ a) : Gives R (pure a) φ := by
  intro s b s' _ hb
  cases hb
  exact h

theorem gives_fail : Gives R fail φ := by
  intro s a s' _ ha
  cases ha

theorem Gives.bind [Passage R] {f : α → Parser β} {ψ : β → Prop} (hp : p.Gives R φ)
    (hf : ∀ a, φ a → (f a).Gives R ψ) : (p >>= f).Gives R ψ := by
  intro s b s' hs hb
  obtain ⟨a, t, ha, hb⟩ := bind_eq_some.mp hb
  have hfirst : R s t := Passage.first hs (extends_of_eq ha) (extends_of_eq hb)
  have hlast : R t s' := Passage.last hs (extends_of_eq ha) (extends_of_eq hb)
  exact hf a (hp hfirst ha) hlast hb

/-- What is read first does not matter. -/
theorem gives_skip [Passage R] {f : α → Parser β} {ψ : β → Prop} (hf : ∀ a, (f a).Gives R ψ) :
    (p >>= f).Gives R ψ := by
  have any : p.Gives R fun _ => True := fun _ _ _ _ _ => trivial
  exact any.bind fun a _ => hf a

theorem gives_ite {c : Prop} [Decidable c] (hp : c → p.Gives R φ) (hq : ¬c → q.Gives R φ) :
    (if c then p else q).Gives R φ := by
  split
  · next h => exact hp h
  · next h => exact hq h

/-! ### Trying -/

theorem forall_mem_some {a : α} (h : φ a) : ∀ b ∈ some a, φ b := fun _ hb => Option.mem_some.mp hb ▸ h

theorem forall_mem_none : ∀ b ∈ (none : Option α), φ b := fun _ hb => nomatch hb

theorem Gives.rewind (h : p.Gives R φ) : (rewind p).Gives R φ :=
  fun _ _ _ hs ha => h hs (rewind_eq_some.mp ha)

theorem Gives.found (h : p.Gives R φ) : (found p).Gives R fun r => ∀ a ∈ r, φ a := by
  intro s r s' hs hr a ha
  cases ha
  exact h hs (found_eq_some.mp hr)

theorem Gives.attempt (h : p.Gives R φ) : (attempt p).Gives R fun r => ∀ a ∈ r, φ a :=
  h.rewind.found

theorem Gives.orElse (hp : p.Gives R φ) (hq : q.Gives R φ) : (p <|> q).Gives R φ := by
  intro s a s' hs ha
  obtain h | ⟨-, h⟩ := orElse_eq_some.mp ha
  · exact hp hs h
  · exact hq hs h

theorem Gives.withProgress [Passage R] (h : p.Gives R φ) :
    (withProgress p).Gives R fun r => ∀ a ∈ r, φ a := by
  refine gives_skip fun before => ?_
  refine h.found.bind fun _ hr => ?_
  refine gives_skip fun after => ?_
  exact gives_ite (fun _ => gives_skip fun _ => gives_pure hr) fun _ => gives_pure hr

/-! ### Repetition -/

/-- What a round of a loop has to come to: the invariant again, or what the loop is to give. -/
def Round.Satisfies (inv : σ → Prop) (φ : α → Prop) : Round σ α → Prop
  | .again next => inv next
  | .done result => φ result

/-- A loop gives what its rounds do, if each round keeps the invariant. -/
theorem gives_repeated [Passage R] {inv : σ → Prop} {body : σ → Parser (Round σ α)} {a : σ}
    (hb : ∀ a, inv a → (body a).Gives R (Round.Satisfies inv φ)) (ha : inv a) :
    (repeated body a).Gives R φ := by
  intro s r s' hs hr
  change loop body a s = _ at hr
  fun_induction loop body a s with
  | case1 => cases hr
  | case2 a s result t ht =>
    cases hr
    exact hb a ha hs ht
  | case3 a s next t ht _ ih =>
    -- The way splits after the first round; what is left of it is a way of the same kind.
    have hlater : t.Extends s' := by
      have h := extends_loop body next t
      rwa [hr] at h
    have hround : R s t := Passage.first hs (extends_of_eq ht) hlater
    have hrest : R t s' := Passage.last hs (extends_of_eq ht) hlater
    exact ih (hb a ha hround ht) hrest hr
  | case4 => cases hr

theorem gives_foldlM [Passage R] {f : β → σ → Parser β} {ψ : β → Prop}
    (hf : ∀ b a, ψ b → (f b a).Gives R ψ) (as : List σ) {b : β} (hb : ψ b) :
    (as.foldlM f b).Gives R ψ := by
  induction as generalizing b with
  | nil => exact gives_pure hb
  | cons a as ih => exact (hf b a hb).bind fun _ h => ih h

end Parser

end Story
