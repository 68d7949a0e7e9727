import Story.Proofs.Productions
import Story.Proofs.TextLines

/-!
# Quoted text in the generated script

Whatever stands between quotes in a story, be it a string, the key of a member or the name of an object, is
written between back-ticks. Escape sequences of the author stay, so not all of it is escaped, and what the
author wrote must not end the literal or start a substitution.

* `readTemplate_escapeStringChars` — words that are written with `escapeStringChars` are read up to their
  end, and no substitution starts in them, unless they end in a dollar sign and a brace follows;
* `TextPart.Apart` — this does not happen, since a chunk comes right after a chunk only where a backslash
  before a star was dropped, and then it starts with the star (`Grammar.quoted_apart`);
* `quoted_literal_closed` — so a literal ends at the back-tick that was written to end it, and it has one
  substitution for each value.
-/

namespace Story

open Story.Parser Story.Grammar

/-! ### Reading quoted words -/

/-- The code that an item is, if it is one. -/
def TemplateItem.code? : TemplateItem → Option (List Char)
  | .char _ | .escape _ => none
  | .code text => some text

open TemplateItem (next? code?)

section Read

variable {r : CodeReader}

/-- A carriage return before a line feed is passed over. -/
theorem readTemplate_return_feed (cs : List Char) :
    readTemplate r ('\r' :: '\n' :: cs) = readTemplate r ('\n' :: cs) := by
  have hreturn : next? r ('\r' :: '\n' :: cs) = some (.char '\n', cs) := rfl
  have hfeed : next? r ('\n' :: cs) = some (.char '\n', cs) :=
    TemplateItem.next?_plain r (by decide) (by simp)
  rw [readTemplate_of_next hreturn, readTemplate_of_next hfeed]

/-- By itself it is read as a line feed. -/
theorem next?_return {cs : List Char} (h : cs.head? ≠ some '\n') :
    next? r ('\r' :: cs) = some (.char '\n', cs) := by
  rcases cs with _ | ⟨c, cs⟩
  · rfl
  · have hc : c ≠ '\n' := fun hc => h (congrArg some hc)
    simp [next?, hc]

/-- Quoted words start as they did, or with a backslash. -/
theorem head?_escapeStringChars (cs : List Char) :
    (escapeStringChars cs).head? = cs.head? ∨ (escapeStringChars cs).head? = some '\\' := by
  fun_cases escapeStringChars cs with
  | case1 | case2 | case3 | case6 => exact .inl rfl
  | case4 | case5 => exact .inr rfl

theorem head?_escapeStringChars_append_ne {cs after : List Char} {c : Char} (hc : c ≠ '\\')
    (hcs : cs.head? ≠ some c) (hafter : after.head? ≠ some c) :
    (escapeStringChars cs ++ after).head? ≠ some c := by
  rw [List.head?_append]
  rcases cs with _ | ⟨d, cs⟩
  · exact hafter
  · -- What is escaped starts as before, or with a backslash.
    obtain h | h := head?_escapeStringChars (d :: cs)
    · rw [h]
      exact hcs
    · rw [h]
      exact fun heq => hc (Option.some.inj heq).symm

/-- **Quoted words are read up to their end,** and they start no substitution. What comes after them must
not start with a brace, since they may end in a dollar sign, and not with a line feed, since they may end in
a carriage return. -/
theorem readTemplate_escapeStringChars (r : CodeReader) (cs : List Char) :
    ∃ items : List TemplateItem, items.filterMap code? = [] ∧ ∀ after : List Char,
      after.head? ≠ some '\x7b' → after.head? ≠ some '\n' →
      readTemplate r (escapeStringChars cs ++ after) = withItems items (readTemplate r after) := by
  fun_induction escapeStringChars cs with
  | case1 => exact ⟨[], rfl, fun after _ _ => (withItems_nil _).symm⟩
  | case2 =>
    -- A backslash at the very end was doubled.
    exact ⟨[.char '\\'], rfl, fun after _ _ => readTemplate_of_next rfl⟩
  | case3 c cs ih =>
    obtain ⟨items, hitems, hread⟩ := ih
    let kept : TemplateItem := if c = '\\' ∨ c = '\x60' ∨ c = '$' then .char c else .escape c
    have hkept : kept.code? = none := by
      unfold kept
      split <;> rfl
    refine ⟨kept :: items, by rw [List.filterMap_cons, hkept, hitems], fun after hbrace hfeed => ?_⟩
    rw [withItems_cons, ← hread after hbrace hfeed]
    exact readTemplate_of_next rfl
  | case4 cs hlast hkeep ih =>
    obtain ⟨items, hitems, hread⟩ := ih
    refine ⟨.char '\x60' :: items, hitems, fun after hbrace hfeed => ?_⟩
    rw [withItems_cons, ← hread after hbrace hfeed]
    exact readTemplate_of_next rfl
  | case5 c cs hlast hkeep htick hdollar ih =>
    obtain ⟨items, hitems, hread⟩ := ih
    refine ⟨.char '$' :: items, hitems, fun after hbrace hfeed => ?_⟩
    rw [withItems_cons, ← hread after hbrace hfeed]
    exact readTemplate_of_next rfl
  | case6 c cs hlast hkeep htick hdollar ih =>
    obtain ⟨items, hitems, hread⟩ := ih
    have hslash : c ≠ '\\' := by
      rintro rfl
      rcases cs with _ | ⟨d, cs⟩
      · exact hlast rfl rfl
      · exact hkeep d cs rfl rfl
    by_cases hreturn : c = '\r'
    · subst hreturn
      by_cases hnext : cs.head? = some '\n'
      · -- The two make up one line feed, which is what the second is read as.
        obtain ⟨cs, rfl⟩ := List.head?_eq_some_iff.mp hnext
        refine ⟨items, hitems, fun after hbrace hfeed => ?_⟩
        rw [← hread after hbrace hfeed]
        exact readTemplate_return_feed (escapeStringChars cs ++ after)
      · refine ⟨.char '\n' :: items, hitems, fun after hbrace hfeed => ?_⟩
        rw [withItems_cons, ← hread after hbrace hfeed]
        exact readTemplate_of_next
          (next?_return (head?_escapeStringChars_append_ne (by decide) hnext hfeed))
    · refine ⟨.char c :: items, hitems, fun after hbrace hfeed => ?_⟩
      rw [withItems_cons, ← hread after hbrace hfeed]
      refine readTemplate_of_next (TemplateItem.next?_plain r ⟨hslash, htick, hreturn⟩ ?_)
      rintro ⟨rfl, hopens⟩
      exact head?_escapeStringChars_append_ne (by decide) (fun h => hdollar ⟨rfl, h⟩) hbrace hopens

end Read

/-! ### Words and codes between quotes -/

namespace Stretch

/-- Words right after words start with a star. -/
def Apart : Stretch → Stretch → Prop
  | .words _, .words next => next.head? = some '*'
  | _, _ => True

/-- What comes after words starts with a star, a dollar sign or the closing back-tick. -/
theorem head?_after_words {text : List Char} {stretches : List Stretch}
    (h : (words text :: stretches).IsChain Apart) (after : List Char) :
    ∃ c, (stretches.flatMap (writtenBy escapeStringChars) ++ '\x60' :: after).head? = some c ∧
      (c = '*' ∨ c = '$' ∨ c = '\x60') := by
  rcases stretches with _ | ⟨next, stretches⟩
  · exact ⟨'\x60', rfl, .inr (.inr rfl)⟩
  · cases next with
    | code code => exact ⟨'$', rfl, .inr (.inl rfl)⟩
    | words next =>
      -- Words follow words only at a star.
      have hnext : next.head? = some '*' := (List.isChain_cons_cons.mp h).1
      obtain ⟨next, rfl⟩ := List.head?_eq_some_iff.mp hnext
      exact ⟨'*', rfl, .inl rfl⟩

end Stretch

/-- **The literal of a quoted text is read up to the back-tick that ends it,** with the codes that it was put
together from and no others. -/
theorem readTemplate_quoted {r : CodeReader} {stretches : List Stretch} (h : stretches.IsChain Stretch.Apart)
    (hcodes : ∀ code ∈ stretches.filterMap Stretch.code?, r.Finds code) :
    ∃ items : List TemplateItem, items.filterMap code? = stretches.filterMap Stretch.code? ∧
      ∀ after, readTemplate r (stretches.flatMap (Stretch.writtenBy escapeStringChars) ++ '\x60' :: after) =
        some (items, after) := by
  induction stretches with
  | nil => exact ⟨[], rfl, fun after => readTemplate_closed after⟩
  | cons s stretches ih =>
    cases s with
    | words text =>
      obtain ⟨items, hitems, hread⟩ := ih h.tail hcodes
      obtain ⟨words, hwords, hreadWords⟩ := readTemplate_escapeStringChars r text
      refine ⟨words ++ items, ?_, fun after => ?_⟩
      · rw [List.filterMap_append, hwords, hitems]
        rfl
      · -- What follows cannot turn the last sign of the words into something else.
        obtain ⟨c, hhead, hc⟩ := Stretch.head?_after_words h after
        have hnot : c ≠ '\x7b' ∧ c ≠ '\n' := by
          obtain rfl | rfl | rfl := hc <;> decide
        rw [List.flatMap_cons, List.append_assoc, Stretch.writtenBy, hreadWords, withItems_eq_some, hread]
        · rw [hhead]
          exact fun heq => hnot.1 (Option.some.inj heq)
        · rw [hhead]
          exact fun heq => hnot.2 (Option.some.inj heq)
    | code code =>
      obtain ⟨hcode, hcodes⟩ := List.forall_mem_cons.mp hcodes
      obtain ⟨items, hitems, hread⟩ := ih h.tail hcodes
      refine ⟨.code code :: items, congrArg (code :: ·) hitems, fun after => ?_⟩
      rw [List.flatMap_cons, List.append_assoc, Stretch.writtenBy, List.cons_append, List.cons_append,
        List.append_assoc, List.singleton_append, readTemplate_code hcode, hread]
      rfl

/-! ### Chunks that follow each other -/

/-- A chunk right after a chunk starts with a star. -/
def TextPart.Apart : TextPart → TextPart → Prop
  | .chunk .., .chunk _ next => next.toList.head? = some '*'
  | _, _ => True

namespace Grammar

/-- What has been read of a quoted text is apart, and the chunk that is pending will be too. -/
structure Content.Parted (c : Content) : Prop where
  parts : c.parts.IsChain fun next p => p.Apart next
  free : c.pending = none → ∀ p ∈ c.parts.head?, ∀ next, p.Apart next
  pending : ∀ chunk ∈ c.pending, ∀ p ∈ c.parts.head?, ∀ span, p.Apart (.chunk span chunk.2)

namespace Content.Parted

variable {c : Content}

theorem empty : Content.Parted .empty := ⟨.nil, fun _ _ h => (nomatch h), fun _ h => (nomatch h)⟩

/-- After a chunk is finished all is apart, though nothing but a star may come next. -/
theorem flush (h : c.Parted) (stop : Position) :
    (c.flush stop).parts.IsChain fun next p => p.Apart next := by
  unfold Content.flush
  split
  · exact h.parts
  · next start text hpending =>
    exact List.isChain_cons.mpr ⟨fun p hp => h.pending _ hpending p hp _, h.parts⟩

theorem finish (h : c.Parted) (stop : Position) : (c.finish stop).IsChain TextPart.Apart := by
  rw [Content.finish, List.isChain_reverse]
  exact h.flush stop

/-- More words go with the chunk that is pending, which starts as before. -/
theorem extend (h : c.Parted) (start : Position) (text : String) : (c.extend start text).Parted := by
  unfold Content.extend
  split
  · next hpending =>
    refine ⟨h.parts, nofun, ?_⟩
    rintro _ ⟨⟩ p hp span
    exact h.free hpending p hp _
  · next first before hpending =>
    refine ⟨h.parts, nofun, ?_⟩
    rintro _ ⟨⟩ p hp span
    have hbefore := h.pending _ hpending p hp span
    cases p with
    | chunk =>
      change (before ++ text).toList.head? = some '*'
      rw [String.toList_append, List.head?_append, show before.toList.head? = some '*' from hbefore]
      rfl
    | splice => trivial

/-- A value parts what is before it from what comes after it. -/
theorem splice (h : c.Parted) (stop : Position) (span : Span) (value : Expression) :
    ((c.flush stop).add (.splice span value)).Parted where
  parts := by
    refine List.isChain_cons.mpr ⟨fun p _ => ?_, h.flush stop⟩
    cases p <;> trivial
  free := by
    rintro - p ⟨⟩ next
    trivial
  pending := by
    rintro chunk hchunk p ⟨⟩ -
    trivial

/-- A star after a chunk is the start of the next one. -/
theorem star (h : c.Parted) (stop start : Position) {text : String} (htext : text.toList.head? = some '*') :
    ((c.flush stop).extend start text).Parted := by
  rw [Content.extend, Content.flush_pending]
  refine ⟨h.flush stop, fun hnone => absurd hnone (Option.some_ne_none _), ?_⟩
  rintro _ ⟨⟩ p - span
  cases p with
  | chunk => exact htext
  | splice => trivial

end Content.Parted

variable {g : Nested} {o : State} {d : Nat}

/-- All stars of the text are spelled as such. -/
abbrev StarsSpelled (o : State) : Prop := ∀ t ∈ o.rest, t.kind = .star → t.text.toList.head? = some '*'

theorem splice_gives_splice :
    (splice g).Gives (o.From d) fun p => ∃ span value, p = .splice span value := by
  unfold splice
  refine gives_skip fun star => gives_skip fun _ => gives_skip fun value => ?_
  refine gives_skip fun span => ?_
  exact gives_pure ⟨span, value, rfl⟩

theorem quotedRound_apart (ho : StarsSpelled o) {quote : TokenKind} {opening : Span} {c : Content}
    (hc : c.Parted) : (quotedRound g quote opening c).Gives (o.From d)
      (Round.Satisfies Content.Parted fun r => r.1.IsChain TextPart.Apart) := by
  intro s r s' hs h
  obtain ⟨-, -, rfl⟩ | ⟨-, -, rfl⟩ | ⟨-, hstar, -, rfl⟩ | ⟨-, -, -, rfl⟩ | ⟨-, part, hpart, rfl⟩ |
    ⟨-, -, -, -, rfl⟩ := quotedRound_cases h
  · exact hc.finish _
  · exact hc.finish _
  · -- The star that is plain text is a token of the text.
    have hline : s.advance.isLineEnd = false := by
      rw [State.isLineEnd, hstar]
      rfl
    have hmem : s.advance.current ∈ o.rest :=
      ((State.extends_advance s).rest.trans hs.rest).subset (State.current_mem_rest hline)
    exact hc.star _ _ (ho _ hmem hstar)
  · exact hc.extend _ _
  · obtain ⟨span, value, rfl⟩ := splice_gives_splice hs hpart
    exact hc.splice _ span value
  · exact hc.extend _ _

/-- **The parts of a quoted text are apart.** -/
theorem quoted_apart (ho : StarsSpelled o) {quote : TokenKind} :
    (quoted g quote).Gives (o.From d) fun r => r.1.IsChain TextPart.Apart := by
  unfold quoted
  exact gives_skip fun _ => gives_repeated (fun _ hc => quotedRound_apart ho hc) .empty

theorem stringLiteral_apart (ho : StarsSpelled o) {quote : Quote} :
    (stringLiteral g quote).Gives (o.From d) fun e => ∀ span q parts, e = .string span q parts →
      parts.IsChain TextPart.Apart := by
  unfold stringLiteral
  refine gives_skip fun opening => ?_
  refine (quoted_apart ho).bind fun r hr => ?_
  refine gives_skip fun _ => ?_
  refine gives_pure ?_
  rintro span q _ ⟨⟩
  exact hr

theorem quotedProperty_apart (ho : StarsSpelled o) {multiline : Bool} {t : Token} {quote : Quote} :
    (quotedProperty g multiline t quote).Gives (o.From d) fun p => ∀ span name q parts value,
      p = .quoted span name q parts value → parts.IsChain TextPart.Apart := by
  unfold quotedProperty
  refine (quoted_apart ho).bind fun r hr => ?_
  refine gives_skip fun key => gives_skip fun value => gives_skip fun _ => ?_
  refine gives_pure ?_
  rintro span name q _ value ⟨⟩
  exact hr

theorem objectKey_apart (ho : StarsSpelled o) :
    (objectKey g).Gives (o.From d) fun k => ∀ span parts, k = .quoted span parts →
      parts.IsChain TextPart.Apart := by
  unfold objectKey
  refine gives_skip fun t => gives_ite (fun _ => ?_) fun _ => ?_
  · exact gives_skip fun _ => gives_skip fun _ => gives_pure nofun
  · refine gives_skip fun _ => ?_
    refine (quoted_apart ho).bind fun r hr => ?_
    refine gives_skip fun _ => ?_
    refine gives_pure ?_
    rintro span _ ⟨⟩
    exact hr

end Grammar

theorem State.starsSpelled_ofText (source : String) (indentSize : Nat) :
    StarsSpelled (State.ofText source indentSize) := by
  have hspellings : ∀ s ∈ TokenKind.spellings, s.kind = .star → s.text.head? = some '*' := by decide
  intro t ht hk
  obtain hword | ⟨s, hs, hkind, htext⟩ := (State.isOf_ofText ht).spelled
  · rw [hk] at hword
    cases hword
  · rw [htext]
    exact hspellings s hs (hkind ▸ hk)

/-! ### Literals -/

namespace TextPart

variable (o : ScriptOptions) (level : Nat)

/-- Stretches are apart where their parts are. -/
theorem isChain_stretches_apart {ps : List TextPart} (h : ps.IsChain Apart) (s : IndentScope) :
    ((stretches o level ps).run s).1.IsChain Stretch.Apart := by
  refine (isChain_stretches_iff o level (fun p q s s' => ?_) ps s).mpr h
  cases p <;> cases q <;> exact Iff.rfl

/-- The value that a part is, if it is one. -/
def value? : TextPart → Option Expression
  | .chunk .. => none
  | .splice _ value => some value

/-- There is one code for each value. -/
theorem length_codes (ps : List TextPart) (s : IndentScope) :
    (codes o level ps s).length = (ps.filterMap value?).length := by
  induction ps generalizing s with
  | nil => rfl
  | cons p ps ih =>
    cases p with
    | chunk => exact ih s
    | splice => exact congrArg (· + 1) (ih _)

end TextPart

/-- **The nodes with quoted text:** the parts of it, the script that is written for the node, and what the
script starts with, up to and with the back-tick before the text. -/
inductive Node.Quotes (o : ScriptOptions) (level : Nat) :
    Node → List TextPart → Emit Script → String → Prop where
  | string (span : Span) (quote : Quote) (parts : List TextPart) :
      Quotes o level (.expression (.string span quote parts)) parts
        ((Expression.string span quote parts).script o level) "\x60"
  | property (span name : Span) (quote : Quote) (parts : List TextPart) (value : Expression) :
      Quotes o level (.property (.quoted span name quote parts value)) parts
        ((Property.quoted span name quote parts value).script o level) "[\x60"
  | key (span : Span) (parts : List TextPart) :
      Quotes o level (.key (.quoted span parts)) parts
        ((ObjectKey.quoted span parts).script o level) "\x60"

section Literal

variable {o : ScriptOptions} {level : Nat} (scope : IndentScope) {n : Node} {parts : List TextPart}
  {script : Emit Script} {opening : String}

open Script (words marked around)

/-- After its opening the script of a quoted text goes on with the text, and a back-tick after it. -/
theorem Node.Quotes.text_script (h : n.Quotes o level parts script opening) :
    ∃ rest, (Script.text o.layout (script.run scope).1).toList = opening.toList ++
      ((Script.text o.layout ((TextPart.scripts o level escapeString parts).run scope).1).toList ++
        '\x60' :: rest) := by
  generalize hinside : (TextPart.scripts o level escapeString parts).run scope = inside
  cases h with
  | string span quote =>
    have hscript : (((Expression.string span quote parts).script o level).run scope).1 =
        marked span (around "\x60" inside.1 "\x60") := hinside ▸ rfl
    refine ⟨[], ?_⟩
    rw [hscript]
    simp [Script.toList_text, marked, around, words, Piece.toText]
  | property span name quote _ value =>
    have hscript : (((Property.quoted span name quote parts value).script o level).run scope).1 =
        marked span (around "[\x60" inside.1 "\x60]: " ++ ((value.script o level).run inside.2).1) :=
      hinside ▸ rfl
    refine ⟨"]: ".toList ++
      (Script.text o.layout ((value.script o level).run inside.2).1).toList, ?_⟩
    rw [hscript]
    simp [Script.toList_text, marked, around, words, Piece.toText]
  | key span =>
    have hscript : (((ObjectKey.quoted span parts).script o level).run scope).1 =
        around "\x60" inside.1 "\x60" := hinside ▸ rfl
    refine ⟨[], ?_⟩
    rw [hscript]
    simp [Script.toList_text, around, words, Piece.toText]

/-- The parts of a quoted text in a story are apart. -/
theorem Node.Quotes.apart (h : n.Quotes o level parts script opening) {source path : String}
    {indentSize : Nat} {l : Line} (hl : l ∈ (parseModule source path indentSize).module.lines) {d : Nat}
    (hw : Node.Within d (.line l) n) : parts.IsChain TextPart.Apart := by
  have hstars := State.starsSpelled_ofText source indentSize
  have horigin := State.parseModule_sound _ path l hl d _ hw
  cases h with
  | string span quote =>
    obtain ⟨g, s, s', hs, -, hread⟩ := horigin
    exact stringLiteral_apart hstars hs hread span quote parts rfl
  | property span name quote _ value =>
    obtain ⟨g, multiline, s, s', hs, -, hread⟩ := horigin
    exact quotedProperty_apart hstars hs hread span name quote parts value rfl
  | key span =>
    obtain ⟨g, s, s', hs, hread⟩ := horigin
    exact objectKey_apart hstars hs hread span parts rfl

/-- **Quoted text never breaks out of its literal.** This is about every string, quoted key of a member and
quoted name of an object in a story, however deep it stands and whatever is wrong with the story, and about
every scope that it is written in. After the opening back-tick comes what is written for its parts and then
the closing one. Read as a template literal, with the code of each value taken as a whole, it ends at that
back-tick, whatever comes after it, and its substitutions are the codes of its values, one for each. -/
theorem quoted_literal_closed {source path : String} {indentSize : Nat} {l : Line}
    (hl : l ∈ (parseModule source path indentSize).module.lines) {d : Nat}
    (hw : Node.Within d (.line l) n) (h : n.Quotes o level parts script opening) {r : CodeReader}
    (hcodes : ∀ code ∈ TextPart.codes o level parts scope, r.Finds code) :
    let inside := (Script.text o.layout
      ((TextPart.scripts o level escapeString parts).run scope).1).toList
    (∃ rest, (Script.text o.layout (script.run scope).1).toList =
        opening.toList ++ (inside ++ '\x60' :: rest)) ∧
      ∃ items : List TemplateItem, (∀ after, readTemplate r (inside ++ '\x60' :: after) = some (items, after)) ∧
        items.filterMap code? = TextPart.codes o level parts scope ∧
        (items.filterMap code?).length = (parts.filterMap TextPart.value?).length := by
  intro inside
  refine ⟨h.text_script scope, ?_⟩
  obtain ⟨items, hitems, hread⟩ :=
    readTemplate_quoted (TextPart.isChain_stretches_apart o level (h.apart hl hw) scope) hcodes
  have hinside : inside = ((TextPart.stretches o level parts).run scope).1.flatMap
      (Stretch.writtenBy escapeStringChars) :=
    TextPart.text_scripts_by o level escapeStringChars parts scope
  refine ⟨items, fun after => ?_, hitems, ?_⟩
  · rw [hinside, hread]
  · rw [hitems]
    exact TextPart.length_codes o level parts scope

/-- The quoted name that a line is about. -/
def Line.quotedName? : Line → Option (Span × List TextPart)
  | .object _ _ _ (.quoted span parts) _ _ _ => some (span, parts)
  | _ => none

theorem Line.within_of_quotedName? {l : Line} {span : Span} {parts : List TextPart}
    (h : l.quotedName? = some (span, parts)) : Node.Within 0 (.line l) (.key (.quoted span parts)) := by
  unfold quotedName? at h
  split at h
  · cases h
    exact .child (n := .line (.object ..)) List.mem_cons_self (.self _)
  · cases h

/-- A name whose first chunk ends in a dollar sign, whose second one has a brace after its star, and which
goes on with a back-tick and a value. -/
theorem quoted_literal_closed_dollar :
    ∃ l ∈ (parseModule "\x60a$\\*\x7b\\\x60*x\x60\n" "" 2).module.lines, ∃ span parts items,
      Node.Within 0 (.line l) (.key (.quoted span parts)) ∧ parts.length = 3 ∧
      (∀ code ∈ TextPart.codes .standard 0 parts .initial, CodeReader.upToBrace.Finds code) ∧
      readTemplate .upToBrace ((Script.text ScriptOptions.standard.layout ((TextPart.scripts .standard 0
        escapeString parts).run .initial).1).toList ++ "\x60]".toList) = some (items, "]".toList) ∧
      (items.filterMap code?).length = 1 := by
  have hline : ∃ l ∈ (parseModule "\x60a$\\*\x7b\\\x60*x\x60\n" "" 2).module.lines,
      ∃ name ∈ l.quotedName?, name.2.length = 3 ∧ (name.2.filterMap TextPart.value?).length = 1 ∧
        ∀ code ∈ TextPart.codes .standard 0 name.2 .initial, '\x7d' ∉ code := by
    decide +kernel
  obtain ⟨l, hl, ⟨span, parts⟩, hname, hlength, hvalues, hbraces⟩ := hline
  have hw := Line.within_of_quotedName? hname
  have hcodes : ∀ code ∈ TextPart.codes .standard 0 parts .initial, CodeReader.upToBrace.Finds code :=
    fun code hcode => CodeReader.upToBrace_finds (hbraces code hcode)
  have hquotes : (Node.key (.quoted span parts)).Quotes .standard 0 parts
      ((ObjectKey.quoted span parts).script .standard 0) "\x60" := .key span parts
  obtain ⟨-, items, hread, -, hone⟩ := quoted_literal_closed .initial hl hw hquotes hcodes
  exact ⟨l, hl, span, parts, items, hw, hlength, hcodes, hread _, hone.trans hvalues⟩

end Literal

end Story
