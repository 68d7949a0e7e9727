import Story.Proofs.Chains
import Story.Proofs.Slices

/-!
# Where reports are about

Most reports are about the token that has been reached, but not all: a string without its end is reported
at its opening quote, and an assignment to what is no target at its operator, after the value has been read.
Still no report is about text before the construct that it belongs to, and one about a target is about text
that has been read.

* `Spot.Holds` — a stretch of text between two spots;
* `Diagnostic.ToldIn a b d` — the report `d` is about text after `a`, and before `b` if it is about a target. It
  is one of the messages about the reading of a story;
* `Parser.TellsFrom a p` — what `p` adds to the reports, wherever it starts after `a`, is told in what has
  been read since `a`. Productions tell from every `a`, and instances go through them; where a place is kept
  for a report, the anchor `a` moves there (`Parser.tellsFrom_look`);
* `Grammar.nested_tells`, `Grammar.lines_tells` — all productions do.
-/

namespace Story

open Story.Parser Story.Grammar

-- Productions are chains of up to a dozen steps, and an instance is found for a chain as a whole.
set_option synthInstance.maxSize 1024

/-! ### Stretches between spots -/

namespace Spot

/-- The span is a stretch of the text between two spots. -/
def Holds (a b : Spot) (span : Span) : Prop :=
  ∃ c d : Spot, a.Onward c ∧ c.Onward d ∧ d.Onward b ∧ span = ⟨c.position, d.position⟩

variable {a a' b b' : Spot} {span : Span}

theorem Holds.mono (h : a.Holds b span) (ha : a'.Onward a) (hb : b.Onward b') : a'.Holds b' span := by
  obtain ⟨c, d, hc, hcd, hd, hspan⟩ := h
  exact ⟨c, d, ha.trans hc, hcd, hd.trans hb, hspan⟩

/-- All between the two spots. -/
theorem holds_self (h : a.Onward b) : a.Holds b ⟨a.position, b.position⟩ :=
  ⟨a, b, .refl a, h, .refl b, rfl⟩

end Spot

theorem State.Placed.holds_current {s : State} (h : s.Placed) :
    s.spot.Holds s.advance.spot s.current.span := by
  rw [h.span_current]
  exact Spot.holds_self (extends_advance s).onward

/-- A message about the reading of a story, but not about the target of an assignment. -/
abbrev Message.IsPlain (m : Message) : Prop := m.code < incomplete.code ∧ m.code ≠ invalidTarget.code

namespace Diagnostic

/-- **Where a report is about:** text after `a` and, if it is about the target of an assignment, before `b`. -/
structure ToldIn (a b : Spot) (d : Diagnostic) : Prop where
  after : ∃ c, a.Holds c d.span
  between : d.code = some Message.invalidTarget.code → a.Holds b d.span
  code : ∃ n < Message.incomplete.code, d.code = some n

variable {a a' b b' : Spot} {d : Diagnostic}

theorem ToldIn.mono (h : d.ToldIn a b) (ha : a'.Onward a) (hb : b.Onward b') : d.ToldIn a' b' where
  after := h.after.imp fun _ hc => hc.mono ha (.refl _)
  between hcode := (h.between hcode).mono ha hb
  code := h.code

/-- A report about anything but a target. -/
theorem toldIn_of {m : Message} {span : Span} {arguments : List String} (hm : m.IsPlain)
    (hspan : ∃ c, a.Holds c span) : (Diagnostic.of m span arguments).ToldIn a b where
  after := hspan
  between hcode := absurd (Option.some.inj hcode) hm.2
  code := ⟨m.code, hm.1, rfl⟩

/-- A report about a stretch that has been read. -/
theorem toldIn_of_holds {m : Message} {span : Span} {arguments : List String}
    (hm : m.code < Message.incomplete.code) (h : a.Holds b span) : (Diagnostic.of m span arguments).ToldIn a b where
  after := ⟨b, h⟩
  between _ := h
  code := ⟨m.code, hm, rfl⟩

end Diagnostic

namespace State

theorem reports_advance (s : State) : s.advance.reports = s.reports := by
  unfold advance
  split <;> rfl

theorem reports_advanceBy (n : Nat) (s : State) : (advanceBy n s).reports = s.reports := by
  induction n generalizing s with
  | zero => rfl
  | succ n ih => exact (ih s.advance).trans (reports_advance s)

end State

/-- What is added to the reports on the way from `s` to `t` is told in what has been read since `a`. -/
def State.TellsTo (a : Spot) (s t : State) : Prop :=
  ∃ added, t.reports = added ++ s.reports ∧ ∀ d ∈ added, d.ToldIn a t.spot

namespace State.TellsTo

variable {a b : Spot} {s t u : State}

theorem of_reports_eq (h : t.reports = s.reports) : TellsTo a s t := ⟨[], h, nofun⟩

theorem refl (a : Spot) (s : State) : TellsTo a s s := of_reports_eq rfl

theorem trans (h : TellsTo a s t) (h' : TellsTo a t u) (htu : t.Extends u) : TellsTo a s u := by
  obtain ⟨added, hreports, htold⟩ := h
  obtain ⟨added', hreports', htold'⟩ := h'
  refine ⟨added' ++ added, by rw [hreports', hreports, List.append_assoc], fun d hd => ?_⟩
  obtain hd | hd := List.mem_append.mp hd
  · exact htold' d hd
  · exact (htold d hd).mono (.refl a) htu.onward

/-- One step, and then the rest from where it leads. -/
theorem andThen (hs : s.Placed) (ha : a.Onward s.spot) (h : TellsTo a s t) (hst : s.Extends t)
    (htu : t.Extends u) (h' : t.Placed → a.Onward t.spot → TellsTo a t u) : TellsTo a s u :=
  h.trans (h' (hs.extended hst) (ha.trans hst.onward)) htu

theorem mono {t' : State} (h : TellsTo b s t) (hab : a.Onward b) (hreports : t'.reports = t.reports)
    (htt' : t.spot.Onward t'.spot) : TellsTo a s t' := by
  obtain ⟨added, hadded, htold⟩ := h
  exact ⟨added, hreports.trans hadded, fun d hd => (htold d hd).mono hab htt'⟩

theorem of_onward (h : TellsTo b s t) (hab : a.Onward b) : TellsTo a s t := h.mono hab rfl (.refl _)

theorem reportAt {m : Message} {span : Span} {arguments : List String}
    (h : (Diagnostic.of m span arguments).ToldIn a s.spot) : TellsTo a s (s.reportAt span m arguments) :=
  ⟨[.of m span arguments], rfl, List.forall_mem_singleton.mpr h⟩

/-- A comment without its end is reported at its first sign. -/
theorem skipComment (hs : s.Placed) (ha : a.Onward s.spot) : TellsTo a s s.skipComment := by
  unfold State.skipComment
  dsimp only
  split
  · exact of_reports_eq ((reports_advanceBy _ _).trans (reports_advanceBy 2 s))
  · next =>
    have hskip : TellsTo a s ((s.advanceBy 2).advanceBy (s.advanceBy 2).rest.length) :=
      of_reports_eq ((reports_advanceBy _ _).trans (reports_advanceBy 2 s))
    have hsign : a.Holds s.advance.spot s.current.span := hs.holds_current.mono ha (.refl _)
    exact hskip.trans (reportAt (Diagnostic.toldIn_of (by decide) ⟨_, hsign⟩)) (extends_reportAt ..)

theorem skipTrivia (multiline : Bool) (hs : s.Placed) (ha : a.Onward s.spot) :
    TellsTo a s (s.skipTrivia multiline) := by
  fun_induction State.skipTrivia multiline s with
  | case1 => exact .refl a _
  | case2 s _ _ _ _ ih =>
    exact andThen hs ha (of_reports_eq (reports_advance s)) (extends_advance s) (extends_skipTrivia ..) ih
  | case3 s _ _ _ _ _ _ ih =>
    exact andThen (t := s.skipLine) hs ha (of_reports_eq rfl) (extends_skipWhile _ s) (extends_skipTrivia ..) ih
  | case4 s _ _ _ _ _ _ _ ih =>
    exact andThen hs ha (skipComment hs ha) (extends_skipComment s) (extends_skipTrivia ..) ih
  | case5 => exact .refl a _
  | case6 => exact .refl a _

end State.TellsTo

/-! ### Parsers -/

namespace Parser

variable {α β σ : Type} {a b : Spot} {p q : Parser α}

/-- **What a parser reports is told in what it reads,** wherever it starts after `a` and whether it fails or
not. -/
class TellsFrom (a : Spot) (p : Parser α) : Prop where
  told {s : State} : s.Placed → a.Onward s.spot → s.TellsTo a (p s).2

theorem tellsFrom_of_reports (h : ∀ s, (p s).2.reports = s.reports) : TellsFrom a p :=
  ⟨fun _ _ => .of_reports_eq (h _)⟩

instance (x : α) : TellsFrom a (pure x : Parser α) := tellsFrom_of_reports fun _ => rfl

instance : TellsFrom a (fail : Parser α) := tellsFrom_of_reports fun _ => rfl

instance (f : State → α) : TellsFrom a (look f) := tellsFrom_of_reports fun _ => rfl

instance : TellsFrom a state := tellsFrom_of_reports fun _ => rfl

instance (p : Parser α) : TellsFrom a (succeeds p) := tellsFrom_of_reports fun s => by rw [succeeds_run]

instance (condition : Bool) : TellsFrom a (require condition) := by
  cases condition <;> exact tellsFrom_of_reports fun _ => rfl

instance (name : String) : TellsFrom a (declare name) := tellsFrom_of_reports fun _ => rfl

instance : TellsFrom a (change .advance) := tellsFrom_of_reports State.reports_advance

instance (n : Nat) : TellsFrom a (change (.advanceBy n)) := tellsFrom_of_reports (State.reports_advanceBy n)

instance : TellsFrom a (change .skipBlanks) := tellsFrom_of_reports fun _ => rfl

instance : TellsFrom a (change .skipLine) := tellsFrom_of_reports fun _ => rfl

instance (value : Import) : TellsFrom a (change (.addImport value)) := tellsFrom_of_reports fun _ => rfl

instance (multiline : Bool) : TellsFrom a (trivia multiline) := ⟨State.TellsTo.skipTrivia multiline⟩

theorem tellsFrom_reportAt {m : Message} {span : Span} (arguments : List String)
    (hm : m.IsPlain) (hspan : ∃ c, a.Holds c span) :
    TellsFrom a (reportAt span m arguments) := ⟨fun _ _ => .reportAt (Diagnostic.toldIn_of hm hspan)⟩

/-- The token that has been reached is part of what comes after `a`. -/
theorem tellsFrom_report {m : Message} {arguments : List String} (hm : m.IsPlain) :
    TellsFrom a (report m arguments) :=
  ⟨fun hs ha => .reportAt (Diagnostic.toldIn_of hm ⟨_, hs.holds_current.mono ha (.refl _)⟩)⟩

/-- What is known of a value may be needed for the reports after it. -/
theorem tellsFrom_bind_of {P : α → Prop} {f : α → Parser β} [hp : TellsFrom a p]
    (hP : ∀ {s : State} {x : α} {t : State}, s.Placed → a.Onward s.spot → p s = (some x, t) → P x)
    (hf : ∀ x, P x → TellsFrom a (f x)) : TellsFrom a (p >>= f) where
  told {s} hs ha := by
    have hfirst := hp.told hs ha
    change s.TellsTo a (bindRun p f s).2
    unfold bindRun
    split
    · -- If the first reader fails, there are no more reports than its own.
      next t h => rwa [h] at hfirst
    · next x t h =>
      rw [h] at hfirst
      exact .andThen hs ha hfirst (extends_of_eq h) ((f x).extended t) (hf x (hP hs ha h)).told

theorem tellsFrom_bind {f : α → Parser β} [TellsFrom a p] (hf : ∀ x, TellsFrom a (f x)) :
    TellsFrom a (p >>= f) :=
  tellsFrom_bind_of (P := fun _ => True) (fun _ _ _ => trivial) fun x _ => hf x

instance (f : α → Parser β) [TellsFrom a p] [hf : ∀ x, TellsFrom a (f x)] : TellsFrom a (p >>= f) :=
  tellsFrom_bind hf

/-- A place that is kept for a report becomes the anchor. -/
theorem tellsFrom_look {view : State → α} {k : α → Parser β}
    (h : ∀ s : State, s.Placed → TellsFrom s.spot (k (view s))) : TellsFrom a (look view >>= k) where
  told {s} hs ha := ((h s hs).told hs (.refl _)).of_onward ha

theorem tellsFrom_state {k : State → Parser β} (h : ∀ s : State, s.Placed → TellsFrom s.spot (k s)) :
    TellsFrom a (state >>= k) := tellsFrom_look h

/-- What has been read since the anchor lies after it. -/
theorem tellsFrom_spanFrom {k : Span → Parser β}
    (h : ∀ span, (∃ c, a.Holds c span) → TellsFrom a (k span)) : TellsFrom a (spanFrom a.position >>= k) where
  told {s} hs ha := (h _ ⟨s.spot, Spot.holds_self ha⟩).told hs ha

instance (c : Prop) [Decidable c] [TellsFrom a p] [TellsFrom a q] : TellsFrom a (if c then p else q) := by
  split <;> infer_instance

instance [hp : TellsFrom a p] : TellsFrom a (rewind p) where
  told {s} hs ha := by
    change s.TellsTo a (rewindRun p s).2
    rw [rewindRun_eq]
    split
    · exact hp.told hs ha
    · exact .refl a s

instance [hp : TellsFrom a p] : TellsFrom a (found p) := ⟨hp.told⟩

instance [TellsFrom a p] : TellsFrom a (attempt p) := inferInstanceAs (TellsFrom a (found (rewind p)))

instance [TellsFrom a p] [TellsFrom a q] : TellsFrom a (p <|> q) := by
  refine tellsFrom_bind (p := attempt p) fun r => ?_
  cases r <;> infer_instance

/-! Surroundings do not matter to reports. -/

instance [hp : TellsFrom a p] : TellsFrom a (inScope p) where
  told hs ha := (hp.told hs ha).mono (.refl a) rfl ⟨List.suffix_rfl, rfl⟩

instance [hp : TellsFrom a p] : TellsFrom a (inBlock p) where
  told {s} hs ha := hp.told (s := { s with blocks := s.blocks + 1 }) { hs with } ha

instance [hp : TellsFrom a p] : TellsFrom a (deeper p) where
  told {s} hs ha := hp.told (s := { s with depth := s.depth + 1 }) { hs with } ha

instance (body : σ → Parser (Round σ α)) [hbody : ∀ x, TellsFrom a (body x)] (x : σ) :
    TellsFrom a (repeated body x) where
  told {s} hs ha := by
    change s.TellsTo a (loop body x s).2
    have hround (x : σ) {s t : State} {r : Option (Round σ α)} (h : body x s = (r, t)) (hs : s.Placed)
        (ha : a.Onward s.spot) : s.TellsTo a t := by
      have htold := (hbody x).told hs ha
      rwa [h] at htold
    fun_induction loop body x s with
    | case1 x s t h => exact hround x h hs ha
    | case2 x s result t h => exact hround x h hs ha
    | case3 x s next t h _ ih =>
      exact .andThen hs ha (hround x h hs ha) (extends_of_eq h) (extends_loop body next t) ih
    | case4 x s next t h _ => exact hround x h hs ha

theorem tellsFrom_foldlM {f : β → α → Parser β} (hf : ∀ y x, TellsFrom a (f y x)) (xs : List α) (y : β) :
    TellsFrom a (xs.foldlM f y) := by
  induction xs generalizing y with
  | nil => exact inferInstanceAs (TellsFrom a (pure y))
  | cons x xs ih =>
    have hfirst := hf y x
    exact tellsFrom_bind (p := f y x) ih

instance (p : Parser α) [TellsFrom a p] : TellsFrom a (withProgress p) := by unfold withProgress; infer_instance

/-! Tokens. -/

instance (condition : State → Bool) : TellsFrom a (requireState condition) := by
  unfold requireState; infer_instance

instance : TellsFrom a token := by unfold token; infer_instance

instance (kind : TokenKind) : TellsFrom a (eat kind) := by unfold eat; infer_instance

instance (word : String) : TellsFrom a (eatWord word) := by unfold eatWord; infer_instance

instance (condition : Token → Bool) : TellsFrom a (eatsIf condition) := by unfold eatsIf; infer_instance

instance (kind : TokenKind) : TellsFrom a (eats kind) := by unfold eats; infer_instance

instance (word : String) : TellsFrom a (eatsWord word) := by unfold eatsWord; infer_instance

instance : TellsFrom a blanks := by unfold blanks; infer_instance

instance : TellsFrom a someBlanks := by unfold someBlanks; infer_instance

instance : TellsFrom a position := by unfold position; infer_instance

instance (start : Position) : TellsFrom a (spanFrom start) := by unfold spanFrom; infer_instance

instance (what : String) : TellsFrom a (expected what) := tellsFrom_report (by decide)

instance (kind : TokenKind) : TellsFrom a (expect kind) := by unfold expect; infer_instance

end Parser

/-! ### Lists and text -/

/-- The readers one level further in tell from everywhere. -/
class Nested.Tells (g : Nested) : Prop where
  derives : g.Derives
  expression (a : Spot) (multiline binary : Bool) : TellsFrom a (g.expression multiline binary)
  operand (a : Spot) (multiline : Bool) : TellsFrom a (g.operand multiline)
  statement (a : Spot) (multiline : Bool) : TellsFrom a (g.statement multiline)

attribute [instance] Nested.Tells.expression Nested.Tells.operand Nested.Tells.statement

/-- A node is read in a stretch of what is read. -/
theorem Reads.holds_node {a b : Spot} {ns : List Node} {n : Node} {span : Span} (h : Reads a (ns.map .node) b)
    (hn : n ∈ ns) (hspan : span ∈ n.span?) : a.Holds b span := by
  obtain ⟨before, after, rfl⟩ := List.append_of_mem hn
  rw [List.map_append, List.map_cons, ← List.singleton_append] at h
  obtain ⟨c, hbefore, h⟩ := h.split
  obtain ⟨d, h, hafter⟩ := h.split
  obtain ⟨c', d', hc, hnode, hplace, hd⟩ := h.node_cases
  exact ⟨c', d', hbefore.onward.trans hc.onward, hnode.onward, hd.onward.trans hafter.onward, hplace span hspan⟩

/-- Where the operator of an operation stands. -/
def Suffix.sign? : Suffix → Option Span
  | .operation sign _ _ => some sign
  | _ => none

namespace Grammar

section Lists

variable {α : Type} {a : Spot} {style : ListStyle} {item : List α → Parser α}

/-- A token that has been read lies after the anchor. -/
theorem token_held {s t : State} {x : Token} (hs : s.Placed) (ha : a.Onward s.spot)
    (h : token s = (some x, t)) : ∃ c, a.Holds c x.span := by
  cases h
  exact ⟨_, hs.holds_current.mono ha (.refl _)⟩

instance [∀ taken, TellsFrom a (item taken)] (p : ListProgress α) : TellsFrom a (listItem style item p) := by
  refine tellsFrom_bind fun before => tellsFrom_bind fun value => ?_
  cases value with
  | some value => infer_instance
  | none =>
    refine tellsFrom_bind_of token_held fun t ht => ?_
    have hreport := tellsFrom_reportAt (m := .unexpectedToken) [t.text] (by decide) ht
    infer_instance

instance [∀ taken, TellsFrom a (item taken)] (p : ListProgress α) :
    TellsFrom a (listElement style item p) := by
  unfold listElement
  split
  · infer_instance
  · have hreport (text : String) : TellsFrom a (report .unexpectedToken [text]) := tellsFrom_report (by decide)
    infer_instance

instance [∀ taken, TellsFrom a (item taken)] (p : ListProgress α) : TellsFrom a (listRound style item p) := by
  unfold listRound
  infer_instance

instance [∀ taken, TellsFrom a (item taken)] : TellsFrom a (bracketed style item) := by
  unfold bracketed
  infer_instance

end Lists

variable {a : Spot} {g : Nested} [g.Tells]

instance : TellsFrom a (splice g) := by unfold splice; infer_instance

instance (c : Content) : TellsFrom a (starOrSplice g c) := by
  refine tellsFrom_bind fun star => tellsFrom_bind fun part => ?_
  cases part <;> infer_instance

instance (c : Content) : TellsFrom a (textRound g c) := by unfold textRound; infer_instance

instance : TellsFrom a (textContent g) := by unfold textContent; infer_instance

theorem quotedRound_tells (quote : TokenKind) {opening : Span} (h : ∃ c, a.Holds c opening) (c : Content) :
    TellsFrom a (quotedRound g quote opening c) := by
  have hreport := tellsFrom_reportAt (m := .unterminatedString) [] (by decide) h
  unfold quotedRound
  infer_instance

instance (quote : TokenKind) : TellsFrom a (quoted g quote) := by
  refine tellsFrom_bind_of token_held fun opening h => ?_
  have hround := quotedRound_tells (g := g) quote h
  infer_instance

/-! ### Lines -/

instance : TellsFrom a indentation := by unfold indentation; infer_instance

instance : TellsFrom a lineEnds := by unfold lineEnds; infer_instance

instance : TellsFrom a lineEnd := by unfold lineEnd; infer_instance

/-- What should not be at the end of a line is reported from where it starts. -/
instance : TellsFrom a finishLine := by
  refine tellsFrom_bind fun found => ?_
  cases found with
  | true => exact inferInstanceAs (TellsFrom a (pure ()))
  | false =>
    refine tellsFrom_state fun s _ => ?_
    refine tellsFrom_bind fun _ => ?_
    refine tellsFrom_spanFrom fun span h => ?_
    have hreport := tellsFrom_reportAt (m := .unexpectedRest) [trimEnd s.lineText] (by decide) h
    exact tellsFrom_bind inferInstance

instance : TellsFrom a (objectKey g) := by unfold objectKey; infer_instance

instance : TellsFrom a (prototype g) := by unfold prototype; infer_instance

instance : TellsFrom a (tagValue g) := by unfold tagValue; infer_instance

instance : TellsFrom a (tag g) := by unfold tag; infer_instance

instance : TellsFrom a (tags g) := by unfold tags tagRound; infer_instance

theorem reportDuplicates_tells {tags : List Tag} (seen : List String)
    (h : ∀ t ∈ tags, ∀ span ∈ (Node.tag t).span?, ∃ c, a.Holds c span) :
    TellsFrom a (reportDuplicates seen tags) := by
  induction tags generalizing seen with
  | nil => exact inferInstanceAs (TellsFrom a (pure ()))
  | cons t tags ih =>
    obtain ⟨span, name, value⟩ := t
    have hreport := tellsFrom_reportAt (m := .duplicateTag) [name] (by decide)
      (h _ List.mem_cons_self span rfl)
    have hrest := ih (name :: seen) fun t ht => h t (List.mem_cons_of_mem _ ht)
    unfold reportDuplicates
    infer_instance

instance : TellsFrom a (initializer g) := by unfold initializer; infer_instance

instance (isScoped : Bool) : TellsFrom a (codeBlock g isScoped) := by unfold codeBlock; infer_instance

instance : TellsFrom a (codeBlockLine g) := by unfold codeBlockLine; infer_instance

instance : TellsFrom a (deleteLine g) := by unfold deleteLine; infer_instance

omit [g.Tells] in
theorem tags_held {s t : State} {ts : List Tag} (hg : g.Derives) (hs : s.Placed) (ha : a.Onward s.spot)
    (h : tags g s = (some ts, t)) : ∀ t ∈ ts, ∀ span ∈ (Node.tag t).span?, ∃ c, a.Holds c span :=
  fun _ hmem _ hspan =>
    ⟨_, ((tags_reads hg hs h).holds_node (List.mem_map_of_mem hmem) hspan).mono ha (.refl _)⟩

instance : TellsFrom a (objectLine g) := by
  refine tellsFrom_bind fun start => tellsFrom_bind fun indent => ?_
  refine tellsFrom_bind fun body => tellsFrom_bind fun key => ?_
  refine tellsFrom_bind fun _ => tellsFrom_bind fun proto => ?_
  refine tellsFrom_bind_of (tags_held Nested.Tells.derives) fun tags h => ?_
  have hreport := reportDuplicates_tells [] h
  infer_instance

instance : TellsFrom a (expectStatement g) := by
  have hreport : TellsFrom a (report .statementExpected []) := tellsFrom_report (by decide)
  refine tellsFrom_bind fun statement => ?_
  cases statement <;> infer_instance

instance : TellsFrom a (statementLine g) := by unfold statementLine; infer_instance

instance : TellsFrom a commentLine := by unfold commentLine; infer_instance

instance : TellsFrom a (textLine g) := by unfold textLine; infer_instance

instance : TellsFrom a (line g) := by unfold line; infer_instance

instance : TellsFrom a templateEnd := by unfold templateEnd; infer_instance

theorem templateRound_tells {opening : Span} (h : ∃ c, a.Holds c opening) (lines : List Line) :
    TellsFrom a (templateRound g opening lines) := by
  -- The only report is about the opening bracket, at the end of the file.
  have hreport := tellsFrom_reportAt (m := .blockNotClosed) [] (by decide) h
  refine tellsFrom_bind fun eof => ?_
  split
  · infer_instance
  · refine tellsFrom_bind fun closing => ?_
    cases closing with
    | some closing => infer_instance
    | none =>
      refine tellsFrom_bind fun l => ?_
      cases l <;> infer_instance

theorem eat_held {s t : State} {x : Token} {kind : TokenKind} (hs : s.Placed) (ha : a.Onward s.spot)
    (h : eat kind s = (some x, t)) : ∃ c, a.Holds c x.span := by
  obtain ⟨-, rfl, rfl⟩ := eat_eq_some.mp h
  exact ⟨_, hs.holds_current.mono ha (.refl _)⟩

instance : TellsFrom a (templateBlock g) := by
  refine tellsFrom_bind_of eat_held fun opening h => ?_
  have hround := templateRound_tells (g := g) h
  infer_instance

instance (multiline : Bool) : TellsFrom a (block g multiline) := by unfold block; infer_instance

/-! ### Expressions -/

instance : TellsFrom a missingHere := by
  have hreport : TellsFrom a (report .expressionExpected []) := tellsFrom_report (by decide)
  unfold missingHere
  infer_instance

instance : TellsFrom a rawName := by unfold rawName; infer_instance

instance : TellsFrom a number := by unfold number; infer_instance

instance (quote : Quote) : TellsFrom a (stringLiteral g quote) := by unfold stringLiteral; infer_instance

variable {multiline : Bool}

instance : TellsFrom a (element g multiline) := by unfold element; infer_instance

instance : TellsFrom a (arguments g multiline) := by unfold arguments; infer_instance

instance : TellsFrom a (arrayLiteral g multiline) := by unfold arrayLiteral; infer_instance

instance : TellsFrom a (expectExpression g multiline) := by
  refine tellsFrom_bind fun value => ?_
  cases value <;> infer_instance

instance (kind : TokenKind) : TellsFrom a (eatsAhead kind multiline) := by unfold eatsAhead; infer_instance

instance (shorthand : Option Expression) : TellsFrom a (propertyValue g multiline shorthand) := by
  cases shorthand <;> unfold propertyValue <;> infer_instance

instance (t : Token) : TellsFrom a (wordProperty g multiline t) := by unfold wordProperty; infer_instance

instance (t : Token) (quote : Quote) : TellsFrom a (quotedProperty g multiline t quote) := by
  unfold quotedProperty; infer_instance

instance : TellsFrom a (computedProperty g multiline) := by unfold computedProperty; infer_instance

instance : TellsFrom a (property g multiline) := by
  refine tellsFrom_bind fun s => ?_
  split
  · infer_instance
  · split <;> infer_instance

instance : TellsFrom a (objectLiteral g multiline) := by unfold objectLiteral; infer_instance

instance : TellsFrom a (parenExpression g) := by unfold parenExpression; infer_instance

instance : TellsFrom a (parameterDefault g multiline) := by unfold parameterDefault; infer_instance

instance : TellsFrom a (parameter g multiline) := by unfold parameter; infer_instance

instance : TellsFrom a (parameters g multiline) := by unfold parameters; infer_instance

instance : TellsFrom a functionName := by unfold functionName; infer_instance

instance (start : Position) (isAsync : Bool) : TellsFrom a (functionExpression g start isAsync multiline) := by
  unfold functionExpression; infer_instance

instance : TellsFrom a (arrowParameters g multiline) := by unfold arrowParameters; infer_instance

instance (start : Position) (isAsync : Bool) : TellsFrom a (arrowFunction g start isAsync multiline) := by
  have hbody (x : Option Block) (brackets : Brackets) (params : List Parameter) : TellsFrom a (match x with
      | some body => (do return Expression.arrowBlock (← spanFrom start) isAsync brackets params body)
      | none => (do
        trivia multiline
        let body ← expectExpression g multiline
        return .arrowValue (← spanFrom start) isAsync brackets params body)) := by
    cases x <;> infer_instance
  unfold arrowFunction
  infer_instance

instance : TellsFrom a (asyncFunction g multiline) := by unfold asyncFunction; infer_instance

instance : TellsFrom a (wordOperand g multiline) := by
  refine tellsFrom_bind fun s => ?_
  dsimp only
  split
  · infer_instance
  split
  · infer_instance
  split <;> infer_instance

instance : TellsFrom a (plainOperand g multiline) := by
  refine tellsFrom_bind fun s => ?_
  split <;> infer_instance

instance (object : Expression) (start : Position) (isOptional : Bool) :
    TellsFrom a (memberName object start isOptional) := by unfold memberName; infer_instance

instance (callee : Expression) : TellsFrom a (newMemberRound callee) := by
  refine tellsFrom_bind fun next => ?_
  cases next <;> infer_instance

instance (callee : Expression) (start : Position) : TellsFrom a (newTail g multiline callee start) := by
  refine tellsFrom_bind fun callee => tellsFrom_bind fun list => ?_
  rcases list with _ | ⟨brackets, items⟩ <;> infer_instance

instance (starts : List Position) : TellsFrom a (newRound starts) := by unfold newRound; infer_instance

instance : TellsFrom a (operand g multiline) := by
  refine tellsFrom_bind fun starts => tellsFrom_bind fun callee => ?_
  exact tellsFrom_foldlM inferInstance starts callee

instance : TellsFrom a updateOperator := by
  refine tellsFrom_bind fun s => ?_
  split <;> infer_instance

instance : TellsFrom a (updateOperand g multiline) := by unfold updateOperand; infer_instance

instance (operator : UnaryOperator) : TellsFrom a (unaryOperand g multiline operator) := by
  unfold unaryOperand; infer_instance

instance (operator : WordOperator) : TellsFrom a (wordOperation g multiline operator) := by
  unfold wordOperation; infer_instance

instance : TellsFrom a (yieldOperand g multiline) := by unfold yieldOperand; infer_instance

instance : TellsFrom a (prefixed g multiline) := by
  refine tellsFrom_bind fun s => ?_
  split
  · infer_instance
  split
  · infer_instance
  split <;> infer_instance

/-! Continuations. -/

variable {s s' : State}

instance (isOptional : Bool) : TellsFrom a (memberSuffix isOptional) := by unfold memberSuffix; infer_instance

instance (isOptional : Bool) : TellsFrom a (callSuffix g multiline isOptional) := by
  unfold callSuffix; infer_instance

instance (isOptional : Bool) : TellsFrom a (indexSuffix g isOptional) := by unfold indexSuffix; infer_instance

instance (isOptional : Bool) : TellsFrom a (updateSuffix isOptional) := by unfold updateSuffix; infer_instance

instance : TellsFrom a eatsOptional := by unfold eatsOptional; infer_instance

instance : TellsFrom a (attachedSuffix g multiline) := by
  have hattachment (isOptional : Bool) : TellsFrom a (attachmentSuffix g multiline isOptional) := by
    refine tellsFrom_bind fun kind => ?_
    cases kind <;> infer_instance
  unfold attachedSuffix
  infer_instance

instance : TellsFrom a (operationSuffix g multiline) := by
  refine tellsFrom_bind fun _ => tellsFrom_bind fun s => ?_
  split <;> infer_instance

instance : TellsFrom a (otherwiseValue g multiline) := by unfold otherwiseValue; infer_instance

instance : TellsFrom a (conditionalSuffix g multiline) := by unfold conditionalSuffix; infer_instance

instance (binary : Bool) : TellsFrom a (suffix g multiline binary) := by unfold suffix; infer_instance

omit [g.Tells] in
/-- What is attached to an operand is no operation. -/
theorem attachedSuffix_gives :
    (attachedSuffix g multiline).Gives State.Anyhow fun w => w.sign? = none := by
  have hmember (isOptional : Bool) :
      (memberSuffix isOptional).Gives State.Anyhow fun w => w.sign? = none :=
    gives_skip fun _ => gives_skip fun _ => gives_pure rfl
  have hattachment (isOptional : Bool) :
      (attachmentSuffix g multiline isOptional).Gives State.Anyhow fun w => w.sign? = none := by
    refine gives_skip fun kind => ?_
    cases kind with
    | dot => exact gives_skip fun _ => gives_skip fun _ => hmember false
    | word => exact gives_skip fun _ => hmember true
    | parenOpen => exact gives_skip fun _ => gives_pure rfl
    | bracketOpen =>
      refine gives_skip fun _ => gives_skip fun _ => gives_skip fun _ => ?_
      refine gives_skip fun _ => gives_skip fun _ => ?_
      exact gives_pure rfl
    | plus | minus => exact gives_skip fun _ => gives_skip fun _ => gives_pure rfl
    | _ => exact gives_fail
  cases multiline with
  | true => exact gives_skip fun _ => gives_skip fun isOptional => hattachment isOptional
  | false => exact gives_skip fun isOptional => hattachment isOptional

omit [g.Tells] in
/-- **An operation** is the operator that stands after trivia, and an operand after it. -/
theorem operationSuffix_cases {w : Suffix} (h : operationSuffix g multiline s = (some w, s')) :
    ∃ u n operator right, trivia multiline s = (some (), u) ∧ operatorAt? u.rest = some operator ∧
      w = .operation u.current.span operator right ∧
      (do trivia multiline; prefixed g multiline) (u.advance.advanceBy n) = (some right, s') := by
  obtain ⟨_, u, hu, h⟩ := bind_eq_some.mp h
  rw [state_bind_run] at h
  split at h
  · cases h
  · next operator hoperator =>
    -- An operator has one token or more; the sign is the first of them.
    obtain ⟨n, hn⟩ : ∃ n, operatorLength operator = n + 1 :=
      Nat.exists_eq_add_one.mpr (operatorAt?_eq_some hoperator).2
    rw [change_bind_run, hn, ← bind_assoc] at h
    obtain ⟨right, _, hright, h⟩ := bind_eq_some.mp h
    cases h
    exact ⟨u, n, operator, right, hu, hoperator, rfl, hright⟩

omit [g.Tells] in
/-- A suffix with a sign is an operation. -/
theorem suffix_operation {binary : Bool} {w : Suffix} {sign : Span}
    (h : suffix g multiline binary s = (some w, s')) (hsign : w.sign? = some sign) :
    operationSuffix g multiline s = (some w, s') := by
  -- Of the three kinds of suffixes only operations have a sign.
  have hattached (h : attachedSuffix g multiline s = (some w, s')) : False := by
    cases hsign.symm.trans (attachedSuffix_gives trivial h)
  cases binary with
  | false => exact (hattached h).elim
  | true =>
    obtain h | ⟨-, h⟩ := orElse_eq_some.mp h
    · exact (hattached h).elim
    · obtain h | ⟨-, h⟩ := orElse_eq_some.mp h
      · exact h
      · have hnone : (conditionalSuffix g multiline).Gives State.Anyhow fun w => w.sign? = none := by
          refine gives_skip fun blanks => gives_skip fun required => gives_skip fun mark => ?_
          refine gives_skip fun blanks' => gives_skip fun whenTrue => gives_skip fun blanks'' => ?_
          exact gives_skip fun whenFalse => gives_pure rfl
        cases hsign.symm.trans (hnone trivial h)

omit [g.Tells] in
/-- The sign of an operation has been read with it. -/
theorem holds_sign {binary : Bool} {w : Suffix} {sign : Span} (hs : s.Placed)
    (h : suffix g multiline binary s = (some w, s')) (hsign : w.sign? = some sign) :
    s.spot.Holds s'.spot sign := by
  obtain ⟨u, n, operator, right, hu, -, rfl, hright⟩ := operationSuffix_cases (suffix_operation h hsign)
  cases hsign
  have hsu : s.Extends u := extends_of_eq hu
  have hlater : u.advance.Extends s' := (State.extends_advanceBy n u.advance).trans (extends_of_eq hright)
  exact (hs.extended hsu).holds_current.mono hsu.onward hlater.onward

omit [g.Tells] in
/-- All that is told of the expression before a suffix is told of its sign. -/
theorem check_cases (e : Expression) (w : Suffix) (s : State) :
    w.check e s = (some (), s) ∨ ∃ sign, w.sign? = some sign ∧
      w.check e s = (some (), s.reportAt sign .invalidTarget []) := by
  cases w with
  | operation sign operator right =>
    rw [Suffix.check]
    split
    · exact .inr ⟨sign, rfl, rfl⟩
    · exact .inl rfl
  | _ => exact .inl rfl

omit [g.Tells] in
theorem continuation_run {binary : Bool} {w : Suffix} (h : suffix g multiline binary s = (some w, s'))
    (start : Position) (e : Expression) :
    continuation g multiline binary start e s =
      (some (.again (w.attach (s'.spanFrom start) e)), (w.check e s').2) := by
  obtain ⟨reports, hcheck⟩ := w.check_run e s'
  have hput : w.putOn start e s' = (some (w.attach (s'.spanFrom start) e), (w.check e s').2) :=
    bind_eq_some.mpr ⟨(), _, hcheck, by rw [hcheck]; rfl⟩
  rw [continuation_eq]
  exact bind_eq_some.mpr ⟨some w, s', attempt_eq_some.mpr (.inl ⟨w, rfl, h⟩),
    bind_eq_some.mpr ⟨_, _, hput, rfl⟩⟩

instance (binary : Bool) (start : Position) (e : Expression) :
    TellsFrom a (continuation g multiline binary start e) where
  told {s} hs ha := by
    have hread : s.TellsTo a (suffix g multiline binary s).2 := TellsFrom.told hs ha
    rcases hw : suffix g multiline binary s with ⟨_ | w, s'⟩
    · rw [continuation_of_none start e (congrArg Prod.fst hw)]
      exact .refl a s
    · rw [hw] at hread
      rw [continuation_run hw]
      obtain hcheck | ⟨sign, hsign, hcheck⟩ := check_cases e w s'
      · rwa [hcheck]
      · -- The report is about the sign, which stands between `s` and `s'`.
        rw [hcheck]
        have hsigned : (Diagnostic.of .invalidTarget sign []).ToldIn a s'.spot :=
          Diagnostic.toldIn_of_holds (by decide) ((holds_sign hs hw hsign).mono ha (.refl _))
        exact hread.trans (.reportAt hsigned) (State.extends_reportAt ..)

instance (binary : Bool) : TellsFrom a (expression g multiline binary) := by unfold expression; infer_instance

/-! ### Statements -/

instance : TellsFrom a (expectBlock g multiline) := by
  refine tellsFrom_bind fun b => ?_
  cases b <;> infer_instance

instance : TellsFrom a (body g multiline) := by
  have hreport : TellsFrom a (report .statementExpected []) := tellsFrom_report (by decide)
  refine tellsFrom_bind fun b => ?_
  cases b with
  | some b => infer_instance
  | none =>
    refine tellsFrom_bind fun x => ?_
    cases x <;> infer_instance

/-- A list covers a stretch of what is read for it. -/
theorem bracketed_held {α : Type} {style : ListStyle} {item : List α → Parser α} {F : α → Node}
    (hitem : ∀ taken, (item taken).ReadsNode F) {brackets : Brackets} {items : List α} (hs : s.Placed)
    (h : bracketed style item s = (some (brackets, items), s')) : s.spot.Holds s'.spot brackets.span := by
  obtain ⟨hopening, c, hitems, hclose⟩ := bracketed_read hitem hs h
  obtain ⟨opening, closing⟩ := brackets
  cases hopening
  cases closing with
  | none =>
    -- A list that is not closed covers its opening bracket.
    rw [Brackets.span_open]
    exact (Spot.holds_self (State.extends_advance s).onward).mono (.refl _)
      (hitems.onward.trans hclose.passes.toOnward)
  | some closing =>
    obtain ⟨d, hcd, hd, rfl⟩ := hclose
    have hinside : s.advance.spot.Onward d := hitems.onward.trans hcd.toOnward
    have hspan := Brackets.span_closed hs.spot (State.extends_advance s).onward hinside hd.toOnward
    change s.spot.Holds s'.spot (Brackets.span ⟨⟨s.spot.position, s.advance.spot.position⟩, _⟩)
    rw [hspan]
    exact Spot.holds_self ((State.extends_advance s).onward.trans (hinside.trans hd.toOnward))

instance : TellsFrom a (condition g multiline) := by
  have hitem (taken : List Expression) :
      (if taken.isEmpty then g.expression multiline true else fail).ReadsNode .expression :=
    readsAs_ite (fun _ => Nested.Tells.derives.expression multiline true) fun _ => readsAs_fail
  refine tellsFrom_bind fun _ => ?_
  -- A list without a value is reported by its brackets, so these have to be known as read.
  refine tellsFrom_bind_of (P := fun list => ∀ x ∈ list, ∃ c, a.Holds c x.1.span) ?_ fun list hlist => ?_
  · rintro s list t hs ha h x rfl
    exact ⟨_, (bracketed_held hitem hs (found_eq_some.mp h)).mono ha (.refl _)⟩
  · match list with
    | none => infer_instance
    | some (_, value :: _) => infer_instance
    | some (brackets, []) =>
      have hreport := tellsFrom_reportAt (m := .expressionExpected) [] (by decide)
        (hlist _ rfl)
      infer_instance

instance (word : String) : TellsFrom a (goesOn word multiline) := by unfold goesOn; infer_instance

instance : TellsFrom a (positionAhead multiline) := by unfold positionAhead; infer_instance

instance : TellsFrom a binding := by unfold binding; infer_instance

instance : TellsFrom a (declaredValue g multiline) := by unfold declaredValue; infer_instance

instance (withValues : Bool) (declarators : List Declarator) :
    TellsFrom a (declaratorRound g multiline withValues declarators) := by
  have hreport : TellsFrom a (report .identifierExpected []) := tellsFrom_report (by decide)
  refine tellsFrom_bind fun _ => tellsFrom_bind fun start => ?_
  refine tellsFrom_bind fun name => ?_
  cases name <;> infer_instance

/-- A declaration is reported from its keyword on. -/
theorem declaration_tells (multiline withValues : Bool) {t : Token} (h : t.start = a.position) :
    TellsFrom a (declaration g multiline withValues t) := by
  refine tellsFrom_bind fun _ => tellsFrom_bind fun declarators => ?_
  rw [h]
  refine tellsFrom_spanFrom fun span hspan => ?_
  have hreport := tellsFrom_reportAt (m := .mixedDeclaration) [] (by decide) hspan
  infer_instance

instance : TellsFrom a (expectParameters g multiline) := by
  refine tellsFrom_bind fun list => ?_
  cases list <;> infer_instance

instance : TellsFrom a (functionDeclaration g multiline) := by
  have hbinding (start : Position) (isAsync isGenerator : Bool) (name : Option Binding) :
      TellsFrom a (match name with
        | none => fail
        | some name => do
          let ((brackets, params), body) ← inScope do
            let _ ← blanks
            let params ← expectParameters g multiline
            let body ← expectBlock g multiline
            return (params, body)
          return Statement.function (← spanFrom start) name isAsync isGenerator brackets params body) := by
    cases name <;> infer_instance
  unfold functionDeclaration
  infer_instance

instance : TellsFrom a (ifStatement g multiline) := by unfold ifStatement; infer_instance

instance : TellsFrom a (switchStatement g multiline) := by unfold switchStatement; infer_instance

instance (start : Position) (test : Option Expression) : TellsFrom a (labelEnd start test) := by
  unfold labelEnd; infer_instance

instance : TellsFrom a (caseLabel g multiline) := by unfold caseLabel; infer_instance

instance : TellsFrom a defaultLabel := by unfold defaultLabel; infer_instance

instance : TellsFrom a (whileStatement g multiline) := by unfold whileStatement; infer_instance

instance : TellsFrom a (doCondition g multiline) := by unfold doCondition; infer_instance

instance : TellsFrom a (doStatement g multiline) := by unfold doStatement; infer_instance

instance : TellsFrom a (loopBinding g) := by
  refine tellsFrom_look fun s hs => ?_
  split
  · have hdeclaration := declaration_tells (g := g) true false (a := s.spot) (t := s.current) rfl
    infer_instance
  · infer_instance

instance : TellsFrom a ofOrIn := by unfold ofOrIn; infer_instance

instance : TellsFrom a (valuesHead g) := by unfold valuesHead; infer_instance

instance : TellsFrom a (countingStart g) := by
  refine tellsFrom_look fun s hs => ?_
  split
  · have hdeclaration := declaration_tells (g := g) true true (a := s.spot) (t := s.current) rfl
    refine tellsFrom_bind fun _ => tellsFrom_bind fun list => ?_
    cases list <;> infer_instance
  · refine tellsFrom_bind fun value => ?_
    cases value <;> infer_instance

instance : TellsFrom a (countingHead g multiline) := by
  refine tellsFrom_bind fun _ => ?_
  refine tellsFrom_bind fun head => ?_
  refine tellsFrom_bind fun _ => ?_
  refine tellsFrom_bind fun _ => ?_
  refine tellsFrom_bind fun _ => ?_
  refine tellsFrom_bind fun test => ?_
  infer_instance

instance (hasHead : Bool) (start : Position) : TellsFrom a (countingLoop g multiline hasHead start) := by
  unfold countingLoop; infer_instance

instance (isAwait hasHead : Bool) (start : Position) :
    TellsFrom a (loopAfter g multiline isAwait hasHead start) := by
  refine tellsFrom_bind fun head => ?_
  cases head <;> infer_instance

instance : TellsFrom a (forStatement g multiline) := by unfold forStatement; infer_instance

instance : TellsFrom a caughtWord := by
  have hreport : TellsFrom a (report .identifierExpected []) := tellsFrom_report (by decide)
  unfold caughtWord
  infer_instance

instance : TellsFrom a caughtName := by unfold caughtName; infer_instance

instance : TellsFrom a (handler g multiline) := by unfold handler; infer_instance

instance : TellsFrom a (finalizer g multiline) := by unfold finalizer; infer_instance

instance : TellsFrom a (tryStatement g multiline) := by
  -- The report is about the whole statement, from the spot where it starts.
  refine tellsFrom_look fun s hs => ?_
  refine tellsFrom_bind fun _ => ?_
  refine tellsFrom_bind fun inner => ?_
  refine tellsFrom_bind fun caught => tellsFrom_bind fun finished => ?_
  refine tellsFrom_spanFrom fun span hspan => ?_
  have hreport := tellsFrom_reportAt (m := .clauseExpected) [] (by decide) hspan
  infer_instance

instance : TellsFrom a (throwStatement g multiline) := by unfold throwStatement; infer_instance

instance : TellsFrom a (returnStatement g multiline) := by unfold returnStatement; infer_instance

instance : TellsFrom a jump := by unfold jump; infer_instance

instance : TellsFrom a importIn := by unfold importIn; infer_instance

instance : TellsFrom a importAlias := by unfold importAlias; infer_instance

theorem abandonImport_tells (start : Position) {m : Message} (hm : m.IsPlain)
    (arguments : List String) : TellsFrom a (abandonImport start m arguments) := by
  have hreport : TellsFrom a (report m arguments) := tellsFrom_report hm
  unfold abandonImport
  infer_instance

instance : TellsFrom a (importPath g) := by unfold importPath; infer_instance

instance (start : Position) (isIn : Bool) (name : String) : TellsFrom a (importFrom g start isIn name) := by
  have hpath : TellsFrom a (abandonImport start .pathExpected []) := abandonImport_tells start (by decide) []
  have hword : TellsFrom a (abandonImport start .expected ["from"]) :=
    abandonImport_tells start (by decide) ["from"]
  unfold importFrom
  infer_instance

instance : TellsFrom a (importStatement g) := by
  have hname (start : Position) : TellsFrom a (abandonImport start .identifierExpected []) :=
    abandonImport_tells start (by decide) []
  unfold importStatement
  infer_instance

instance : TellsFrom a (expressionStatement g multiline) := by unfold expressionStatement; infer_instance

theorem variableStatement_tells (multiline : Bool) {t : Token} (h : t.start = a.position) :
    TellsFrom a (variableStatement g multiline t) := by
  have hdeclaration := declaration_tells (g := g) multiline true h
  unfold variableStatement
  split <;> infer_instance

theorem wordStatement_tells (multiline : Bool) {t : Token} (h : t.start = a.position) :
    TellsFrom a (wordStatement g multiline t) := by
  have hvariable := variableStatement_tells (g := g) multiline h
  unfold wordStatement
  split <;> infer_instance

instance : TellsFrom a (bareStatement g multiline) := by
  refine tellsFrom_look fun s hs => ?_
  have hword := wordStatement_tells (g := g) multiline (a := s.spot) (t := s.current) rfl
  split <;> infer_instance

instance : TellsFrom a (statement g multiline) := by unfold statement; infer_instance

/-! ### Levels of nesting -/

instance {α : Type} {inner instead : Parser α} [TellsFrom a inner] [TellsFrom a instead] :
    TellsFrom a (guarded inner instead) := by
  have hreport : TellsFrom a (report .nestingTooDeep []) := tellsFrom_report (by decide)
  unfold guarded
  infer_instance

instance : TellsFrom a passedOver := by unfold passedOver; infer_instance

instance : refused.Tells where
  derives := refused_derives
  expression _ _ _ := by unfold refused; infer_instance
  operand _ _ := by unfold refused; infer_instance
  statement _ _ := by unfold refused; infer_instance

omit [g.Tells] in
theorem levelled_tells (hderives : (levelled g).Derives)
    [∀ a multiline binary, TellsFrom a (g.expression multiline binary)]
    [∀ a multiline, TellsFrom a (g.operand multiline)]
    [∀ a multiline, TellsFrom a (g.statement multiline)] : (levelled g).Tells where
  derives := hderives
  expression _ _ _ := by unfold levelled; infer_instance
  operand _ _ := by unfold levelled; infer_instance
  statement _ _ := by unfold levelled; infer_instance

/-- **All levels tell what they report in what they read.** -/
instance nested_tells (n : Nat) : (nested n).Tells := by
  induction n with
  | zero => exact levelled_tells (nested_derives 0)
  | succ n ih =>
    -- One level further out the readers are the productions over `nested n`.
    have hexpression (a : Spot) (multiline binary : Bool) :
        TellsFrom a ((productions (nested n)).expression multiline binary) :=
      inferInstanceAs (TellsFrom a (expression (nested n) multiline binary))
    have hoperand (a : Spot) (multiline : Bool) : TellsFrom a ((productions (nested n)).operand multiline) :=
      inferInstanceAs (TellsFrom a (prefixed (nested n) multiline))
    have hstatement (a : Spot) (multiline : Bool) :
        TellsFrom a ((productions (nested n)).statement multiline) :=
      inferInstanceAs (TellsFrom a (statement (nested n) multiline))
    exact levelled_tells (nested_derives (n + 1))

instance : TellsFrom a lines := by
  have hround (ls : List Line) : TellsFrom a (moduleRound ls) := by
    refine tellsFrom_bind fun eof => ?_
    split
    · infer_instance
    · have hline : TellsFrom a (line outermost) := inferInstanceAs (TellsFrom a (line (nested nestingLimit)))
      refine tellsFrom_bind fun l => ?_
      cases l <;> infer_instance
  unfold lines
  infer_instance

end Grammar

/-- **What is wrong with a text is told by messages about reading.** -/
theorem code_of_mem_parseModule {text path : String} {n : Nat} {d : Diagnostic}
    (h : d ∈ (parseModule text path n).diagnostics) : ∃ c < Message.incomplete.code, d.code = some c := by
  have htells : State.TellsTo (State.ofText text n).spot (State.ofText text n) (lines (State.ofText text n)).2 :=
    TellsFrom.told (State.placed_ofText text n) (.refl _)
  obtain ⟨added, hadded, htold⟩ := htells
  have hnone : (State.ofText text n).reports = [] := rfl
  rw [parseModule, State.mem_diagnostics, hadded, hnone, List.append_nil] at h
  exact (htold d h).code

end Story
