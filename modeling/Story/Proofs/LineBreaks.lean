import Mathlib.Data.List.Forall2
import Story.Grammar.Module
import Story.Proofs.Matching
import Story.Proofs.Tokenization

/-!
# Two ways to end a line

A line may end with a line feed, or with a carriage return and a line feed. A text that has no carriage
returns is written in the other way by `withReturns`. The tokens of the two texts correspond one by one:
only the ends of lines have other texts, and only offsets are other places.

* `lexeme_addReturns` — the first token of a text, in both ways;
* `Token.Counterpart` — tokens of the two texts that correspond, and `scan_counterparts` — all of them do;
* `Lens.returned` — what is to be seen of the first text so that it looks like the second. Between the two
  stands `Lens.plain`, which changes nothing about a text without carriage returns;
* `State.matches_returned`, `State.matches_plain` — seen so, the two texts read alike.
-/

namespace Story

/-! ### Texts -/

/-- A line feed with a carriage return before it, and any other character as it is. -/
def returnBefore (c : Char) : List Char := if c = '\n' then ['\r', '\n'] else [c]

/-- The characters with a carriage return before each line feed. -/
def addReturns (cs : List Char) : List Char := cs.flatMap returnBefore

/-- The text with a carriage return before each line feed. -/
def withReturns (text : String) : String := .ofList (addReturns text.toList)

/-- The text without its carriage returns. -/
def withoutReturns (text : String) : String := .ofList (text.toList.filter (· != '\r'))

/-- The text without anything that may end a line. -/
def onOneLine (text : String) : String := .ofList (text.toList.filter fun c => c != '\n' && c != '\r')

theorem addReturns_feed (cs : List Char) : addReturns ('\n' :: cs) = '\r' :: '\n' :: addReturns cs := rfl

theorem addReturns_cons {c : Char} (h : c ≠ '\n') (cs : List Char) :
    addReturns (c :: cs) = c :: addReturns cs := by
  rw [addReturns, List.flatMap_cons, returnBefore, if_neg h]
  rfl

theorem addReturns_append (cs ds : List Char) : addReturns (cs ++ ds) = addReturns cs ++ addReturns ds :=
  List.flatMap_append

theorem addReturns_ne_nil {cs : List Char} (h : cs ≠ []) : addReturns cs ≠ [] := by
  obtain ⟨c, cs, rfl⟩ := List.exists_cons_of_ne_nil h
  by_cases hc : c = '\n'
  · subst hc
    exact List.cons_ne_nil _ _
  · rw [addReturns_cons hc]
    exact List.cons_ne_nil _ _

theorem addReturns_eq_self {cs : List Char} (h : '\n' ∉ cs) : addReturns cs = cs := by
  induction cs with
  | nil => rfl
  | cons c cs ih =>
    obtain ⟨hc, hcs⟩ := not_or.mp (mt List.mem_cons.mpr h)
    rw [addReturns_cons (Ne.symm hc), ih hcs]

theorem withoutReturns_eq_self {text : String} (h : '\r' ∉ text.toList) : withoutReturns text = text := by
  rw [withoutReturns, List.filter_eq_self.mpr fun c hc => ?_, String.ofList_toList]
  exact bne_iff_ne.mpr fun heq => h (heq ▸ hc)

theorem onOneLine_eq_self {text : String} (h : '\n' ∉ text.toList) (h' : '\r' ∉ text.toList) :
    onOneLine text = text := by
  rw [onOneLine, List.filter_eq_self.mpr fun c hc => ?_, String.ofList_toList]
  rw [Bool.and_eq_true, bne_iff_ne, bne_iff_ne]
  exact ⟨fun heq => h (heq ▸ hc), fun heq => h' (heq ▸ hc)⟩

theorem withReturns_append (s t : String) : withReturns (s ++ t) = withReturns s ++ withReturns t := by
  rw [withReturns, String.toList_append, addReturns_append, String.ofList_append]
  rfl

theorem withoutReturns_append (s t : String) :
    withoutReturns (s ++ t) = withoutReturns s ++ withoutReturns t := by
  rw [withoutReturns, String.toList_append, List.filter_append, String.ofList_append]
  rfl

/-! ### Places -/

namespace Position

/-- The place after the characters, from the start of the text. -/
def after (cs : List Char) : Position := cs.foldl step .zero

/-- So many bytes further on, on the same line and in the same column. -/
def shift (n : Nat) (p : Position) : Position := { p with offset := p.offset + n }

theorem after_append (cs ds : List Char) : after (cs ++ ds) = (after cs).advance (String.ofList ds) := by
  rw [after, List.foldl_append, advance, String.toList_ofList, after]

/-- Each carriage return is one byte more, and a line feed follows it. -/
theorem foldl_addReturns (cs : List Char) (n : Nat) (p : Position) :
    (addReturns cs).foldl step (p.shift n) = (cs.foldl step p).shift (n + cs.count '\n') := by
  induction cs generalizing n p with
  | nil => rfl
  | cons c cs ih =>
    by_cases hc : c = '\n'
    · -- The return is one byte on the old line; only the feed after it starts a new one.
      subst hc
      have hstep : ((p.shift n).step '\r').step '\n' = (p.step '\n').shift (n + 1) := by
        have hbyte : '\r'.utf8Size = 1 := by decide
        simp [step, shift, hbyte]
        omega
      rw [addReturns_feed, List.foldl_cons, List.foldl_cons, hstep, ih, List.foldl_cons, List.count_cons_self,
        Nat.add_assoc, Nat.add_comm 1]
    · have hstep : (p.shift n).step c = (p.step c).shift n := by
        simp [step, shift, hc, Nat.add_right_comm]
      rw [addReturns_cons hc, List.foldl_cons, hstep, ih, List.foldl_cons, List.count_cons_of_ne hc]

theorem after_addReturns (cs : List Char) : after (addReturns cs) = (after cs).shift (cs.count '\n') := by
  have h := foldl_addReturns cs 0 .zero
  rwa [Nat.zero_add] at h

end Position

/-- The line feeds among the first `n` bytes. -/
def feedsBefore : List Char → Nat → Nat
  | [], _ => 0
  | c :: cs, n => if n < c.utf8Size then 0 else [c].count '\n' + feedsBefore cs (n - c.utf8Size)

theorem feedsBefore_mono (cs : List Char) {m n : Nat} (h : m ≤ n) : feedsBefore cs m ≤ feedsBefore cs n := by
  induction cs generalizing m n with
  | nil => exact Nat.le_refl 0
  | cons c cs ih =>
    rw [feedsBefore, feedsBefore]
    split_ifs with hm hn hn
    · exact Nat.le_refl 0
    · exact Nat.zero_le _
    · omega
    · exact Nat.add_le_add_left (ih (Nat.sub_le_sub_right h _)) _

/-- After a stretch at the start of the text come the line feeds of that stretch. -/
theorem feedsBefore_after (pre rest : List Char) :
    feedsBefore (pre ++ rest) (Position.after pre).offset = pre.count '\n' := by
  rw [Position.after, Position.offset_foldl_step, show Position.zero.offset = 0 from rfl, Nat.zero_add]
  induction pre with
  | nil =>
    cases rest with
    | nil => rfl
    | cons c rest => exact if_pos c.utf8Size_pos
  | cons c pre ih =>
    have hbytes : (String.ofList (c :: pre)).utf8ByteSize = c.utf8Size + (String.ofList pre).utf8ByteSize := by
      simp [String.ofList_cons]
    rw [hbytes, List.cons_append, feedsBefore, if_neg (by omega), Nat.add_sub_cancel_left, ih, ← List.count_append]
    rfl

/-! ### Tokens -/

/-- A spelling is an end of line, or there is none in it. -/
theorem spelling_breaks : ∀ s ∈ TokenKind.spellings,
    s.kind = .endline ∧ (s.text = ['\n'] ∨ s.text = ['\r', '\n']) ∨
      s.kind ≠ .endline ∧ '\n' ∉ s.text ∧ '\r' ∉ s.text := by
  decide

/-- What is on one line starts both texts or neither. -/
theorem isPrefixOf_addReturns {word : List Char} (hfeed : '\n' ∉ word) (hreturn : '\r' ∉ word) (cs : List Char) :
    word.isPrefixOf (addReturns cs) = word.isPrefixOf cs := by
  induction word generalizing cs with
  | nil => rfl
  | cons x word ih =>
    obtain ⟨hx, hword⟩ := not_or.mp (mt List.mem_cons.mpr hfeed)
    obtain ⟨hx', hword'⟩ := not_or.mp (mt List.mem_cons.mpr hreturn)
    cases cs with
    | nil => rfl
    | cons c cs =>
      by_cases hc : c = '\n'
      · subst hc
        -- Here the texts differ, but the word goes on with neither of their signs.
        rw [addReturns_feed, List.isPrefixOf_cons_cons, List.isPrefixOf_cons_cons,
          beq_eq_false_iff_ne.mpr (Ne.symm hx), beq_eq_false_iff_ne.mpr (Ne.symm hx'), Bool.false_and,
          Bool.false_and]
      · rw [addReturns_cons hc, List.isPrefixOf_cons_cons, List.isPrefixOf_cons_cons, ih hword hword']

theorem longestSpelling_addReturns {c : Char} (hc : c ≠ '\n') (hc' : c ≠ '\r') (cs : List Char) :
    longestSpelling TokenKind.spellings (addReturns (c :: cs)) =
      longestSpelling TokenKind.spellings (c :: cs) := by
  simp only [longestSpelling, firstSpelling, ← List.head?_filter]
  refine congrArg List.head? (List.filter_congr fun s hs => ?_)
  -- An end of line starts with another character; any other spelling has neither of the two in it.
  obtain ⟨-, htext | htext⟩ | ⟨-, hfeed, hreturn⟩ := spelling_breaks s (Spelling.mem_byLength.mp hs)
  · rw [htext, addReturns_cons hc, List.isPrefixOf_cons_cons, List.isPrefixOf_cons_cons,
      beq_eq_false_iff_ne.mpr (Ne.symm hc), Bool.false_and, Bool.false_and]
  · rw [htext, addReturns_cons hc, List.isPrefixOf_cons_cons, List.isPrefixOf_cons_cons,
      beq_eq_false_iff_ne.mpr (Ne.symm hc'), Bool.false_and, Bool.false_and]
  · exact isPrefixOf_addReturns hfeed hreturn _

/-- A word is the same in both texts, and there is no end of line in it. -/
theorem wordAt_addReturns {cs : List Char} (hcs : '\r' ∉ cs) :
    wordAt TokenKind.spellings (addReturns cs) = wordAt TokenKind.spellings cs ∧
      '\n' ∉ wordAt TokenKind.spellings cs := by
  induction cs with
  | nil => exact ⟨rfl, List.not_mem_nil⟩
  | cons c cs ih =>
    obtain ⟨hc', hcs⟩ := not_or.mp (mt List.mem_cons.mpr hcs)
    obtain ⟨hsame, hfeed⟩ := ih hcs
    by_cases hc : c = '\n'
    · -- At a line feed the word ends, in whichever way the line does.
      subst hc
      exact ⟨rfl, List.not_mem_nil⟩
    · have hlongest := longestSpelling_addReturns hc (Ne.symm hc') cs
      rw [addReturns_cons hc] at hlongest ⊢
      rw [wordAt_cons, wordAt_cons, hlongest, hsame]
      split
      · exact ⟨rfl, List.not_mem_nil⟩
      · exact ⟨rfl, List.not_mem_cons_of_ne_of_not_mem (Ne.symm hc) hfeed⟩

/-- **The first token of a text, in both ways.** -/
theorem lexeme_addReturns {c : Char} {cs : List Char} (hcs : '\r' ∉ c :: cs) :
    lexeme TokenKind.spellings (addReturns (c :: cs)) =
      ((lexeme TokenKind.spellings (c :: cs)).1, addReturns (lexeme TokenKind.spellings (c :: cs)).2) ∧
    ((lexeme TokenKind.spellings (c :: cs)).1 = .endline ∧ (lexeme TokenKind.spellings (c :: cs)).2 = ['\n'] ∨
      (lexeme TokenKind.spellings (c :: cs)).1 ≠ .endline ∧ '\n' ∉ (lexeme TokenKind.spellings (c :: cs)).2) := by
  by_cases hc : c = '\n'
  · subst hc
    exact ⟨rfl, .inl ⟨rfl, rfl⟩⟩
  have hc' : c ≠ '\r' := fun heq => hcs (heq ▸ List.mem_cons_self)
  have hne : addReturns (c :: cs) ≠ [] := by
    rw [addReturns_cons hc]
    exact List.cons_ne_nil _ _
  rw [lexeme_of_ne_nil _ hne, lexeme_of_ne_nil _ (List.cons_ne_nil c cs), longestSpelling_addReturns hc hc']
  cases hlongest : longestSpelling TokenKind.spellings (c :: cs) with
  | none =>
    obtain ⟨hsame, hfeed⟩ := wordAt_addReturns hcs
    simp only [hsame, addReturns_eq_self hfeed, true_and]
    exact .inr ⟨by decide, hfeed⟩
  | some s =>
    have hs := isLongest_of_eq_some hlongest
    -- The text starts with the spelling, and not with an end of line.
    obtain ⟨-, htext | htext⟩ | ⟨hkind, hfeed, -⟩ := spelling_breaks s hs.mem
    · exact absurd (List.cons_prefix_cons.mp (htext ▸ hs.starts)).1.symm hc
    · exact absurd (List.cons_prefix_cons.mp (htext ▸ hs.starts)).1.symm hc'
    · simp only [addReturns_eq_self hfeed, true_and]
      exact .inr ⟨hkind, hfeed⟩

/-- **Tokens that correspond,** one of a story and one of the story with carriage returns. -/
structure Token.Counterpart (story : List Char) (t u : Token) : Prop where
  kind : t.kind = u.kind
  text : u.text = withReturns t.text
  breaks : t.kind = .endline ∧ t.text = "\n" ∨ t.kind ≠ .endline ∧ '\n' ∉ t.text.toList
  place : ∃ pre, pre ++ t.text.toList <+: story ∧ t.start = .after pre ∧ u.start = .after (addReturns pre)

/-- A scanner after `pre` gives out the token that the rest of the text starts with. -/
theorem tokens_after {pre word rest : List Char} {kind : TokenKind} (hword : word ≠ [])
    (h : lexeme TokenKind.spellings (word ++ rest) = (kind, word)) :
    (⟨some (word ++ rest), .after pre⟩ : Scanner).tokens TokenKind.spellings =
      ⟨kind, .ofList word, .after pre⟩ ::
        (⟨some rest, .after (pre ++ word)⟩ : Scanner).tokens TokenKind.spellings := by
  let t : Token := ⟨kind, .ofList word, .after pre⟩
  have htext : t.text.toList = word := String.toList_ofList
  have hempty : t.text ≠ "" := fun heq => hword (htext.symm.trans (congrArg String.toList heq))
  have hlexeme : lexeme TokenKind.spellings (t.text.toList ++ rest) = (t.kind, t.text.toList) := by
    rw [htext]
    exact h
  have htokens := Scanner.tokens_append hempty hlexeme
  rw [htext] at htokens
  rw [Position.after_append]
  exact htokens

/-- All tokens that a scanner gives out correspond. -/
theorem tokens_counterparts {story pre cs : List Char} (hstory : story = pre ++ cs) (hreturn : '\r' ∉ cs) :
    List.Forall₂ (Token.Counterpart story)
      ((⟨some cs, .after pre⟩ : Scanner).tokens TokenKind.spellings)
      ((⟨some (addReturns cs), .after (addReturns pre)⟩ : Scanner).tokens TokenKind.spellings) := by
  -- By induction on what is left of the story; a token is cut off both texts.
  induction hn : cs.length using Nat.strongRecOn generalizing pre cs with
  | ind n ih =>
    subst hn
    rcases cs with _ | ⟨c, cs⟩
    · rw [show addReturns [] = [] from rfl, Scanner.tokens_end, Scanner.tokens_end]
      refine .cons ⟨rfl, rfl, .inr ⟨nofun, List.not_mem_nil⟩, pre, ?_, rfl, rfl⟩ .nil
      exact hstory ▸ List.prefix_rfl
    obtain ⟨word, rest, hcs, hword, hfirst⟩ : ∃ word rest, c :: cs = word ++ rest ∧ word ≠ [] ∧
        (lexeme TokenKind.spellings (c :: cs)).2 = word := by
      obtain ⟨rest, hcs, hempty, -⟩ := lexeme_spec TokenKind.spellings_lawful c cs .zero
      rw [String.toList_ofList] at hcs
      exact ⟨_, rest, hcs, fun hnil => hempty (by rw [hnil]), rfl⟩
    obtain ⟨hlexeme, hbreaks⟩ := lexeme_addReturns hreturn
    have hlength : rest.length < (c :: cs).length := by
      have hpos := List.length_pos_iff.mpr hword
      rw [hcs, List.length_append]
      omega
    have hkind : lexeme TokenKind.spellings (c :: cs) = ((lexeme TokenKind.spellings (c :: cs)).1, word) := by
      rw [← hfirst]
    generalize (lexeme TokenKind.spellings (c :: cs)).1 = kind at hkind hlexeme hbreaks
    rw [hfirst] at hlexeme hbreaks
    rw [hcs] at hkind hlexeme hstory hreturn ⊢
    rw [addReturns_append] at hlexeme ⊢
    have hword' : addReturns word ≠ [] := addReturns_ne_nil hword
    rw [tokens_after hword hkind, tokens_after hword' hlexeme, ← addReturns_append]
    refine .cons ⟨rfl, ?_, ?_, pre, ?_, rfl, rfl⟩
      (ih _ hlength (hstory.trans (List.append_assoc ..).symm) (fun h => hreturn (List.mem_append_right _ h)) rfl)
    · rw [withReturns, String.toList_ofList]
    · obtain ⟨hend, rfl⟩ | ⟨hend, hfeed⟩ := hbreaks
      · exact .inl ⟨hend, rfl⟩
      · exact .inr ⟨hend, String.toList_ofList.symm ▸ hfeed⟩
    · rw [hstory, String.toList_ofList, ← List.append_assoc]
      exact List.prefix_append ..

namespace Token

variable {story : List Char} {t u : Token}

/-- A sign of one character is no end of line, unless it is a line feed. -/
theorem ofChar_ne_endline {c : Char} (h : c ≠ '\n') : TokenKind.ofChar c ≠ .endline := by
  unfold TokenKind.ofChar
  split
  · next s hs =>
    have htext : s.text = [c] := by simpa using List.find?_some hs
    obtain ⟨-, hfeed | hreturn⟩ | ⟨hkind, -⟩ := spelling_breaks s (List.mem_of_find?_eq_some hs)
    · rw [htext] at hfeed
      exact absurd (List.head_eq_of_cons_eq hfeed) h
    · rw [htext] at hreturn
      cases hreturn
    · exact hkind
  · exact nofun

/-- The signs of a stretch without line feeds correspond. -/
theorem ofChars_counterparts {pre cs : List Char} (hcs : '\n' ∉ cs) (hstory : pre ++ cs <+: story) :
    List.Forall₂ (Counterpart story) (ofChars (.after pre) cs) (ofChars (.after (addReturns pre)) cs) := by
  induction cs generalizing pre with
  | nil => exact .nil
  | cons c cs ih =>
    obtain ⟨hc, hcs⟩ := not_or.mp (mt List.mem_cons.mpr hcs)
    have hsingle : c.toString.toList = [c] := by simp
    have hbreak : '\n' ∉ [c] := fun hmem => hc (List.mem_singleton.mp hmem)
    -- Both readings go on by the same character, which is no end of line.
    have hafter (pre : List Char) : (Position.after pre).step c = .after (pre ++ [c]) := by
      rw [Position.after, Position.after, List.foldl_append]
      rfl
    have hreturns : addReturns pre ++ [c] = addReturns (pre ++ [c]) := by
      rw [addReturns_append, addReturns_cons (Ne.symm hc)]
      rfl
    have hsplit : pre ++ c :: cs = pre ++ [c] ++ cs := by simp
    rw [hsplit] at hstory
    refine .cons ⟨rfl, ?_, .inr ⟨ofChar_ne_endline (Ne.symm hc), ?_⟩, pre, ?_, rfl, rfl⟩ ?_
    · rw [withReturns, hsingle, addReturns_eq_self hbreak, ← hsingle, String.ofList_toList]
    · rw [hsingle]
      exact hbreak
    · rw [hsingle]
      exact (List.prefix_append ..).trans hstory
    · rw [hafter, hafter, hreturns]
      exact ih hcs hstory

theorem Counterpart.signs (h : t.Counterpart story u) : List.Forall₂ (Counterpart story) t.signs u.signs := by
  rw [Token.signs, Token.signs, ← h.kind]
  split
  · next hcomment =>
    -- Signs are split off comments only, and those are on one line, so both have the same text.
    obtain ⟨hkind, -⟩ | ⟨-, hfeed⟩ := h.breaks
    · rw [hkind] at hcomment
      cases hcomment
    · obtain ⟨pre, hstory, hstart, hstart'⟩ := h.place
      rw [h.text, withReturns, addReturns_eq_self hfeed, String.ofList_toList, hstart, hstart']
      exact ofChars_counterparts hfeed hstory
  · exact .cons h .nil

theorem Counterpart.stop (h : t.Counterpart story u) :
    ∃ pre, pre <+: story ∧ t.stop = .after pre ∧ u.stop = .after (addReturns pre) := by
  obtain ⟨pre, hstory, hstart, hstart'⟩ := h.place
  refine ⟨_, hstory, ?_, ?_⟩
  · rw [Token.stop, hstart, Position.after_append, String.ofList_toList]
  · rw [Token.stop, hstart', addReturns_append, Position.after_append, h.text]
    rfl

end Token

/-- **The tokens of a story and of the story with carriage returns correspond one by one.** -/
theorem scan_counterparts {text : String} (h : '\r' ∉ text.toList) :
    List.Forall₂ (Token.Counterpart text.toList) (splitComments (scan text))
      (splitComments (scan (withReturns text))) := by
  have hscan := tokens_counterparts (List.nil_append text.toList).symm h
  have hreturns : (withReturns text).toList = addReturns text.toList := String.toList_ofList
  refine List.rel_flatMap (R := Token.Counterpart text.toList) ?_ fun _ _ => Token.Counterpart.signs
  rw [scan, scan, scanWith, scanWith, Scanner.ofText, Scanner.ofText, hreturns]
  exact hscan

/-! ### Lenses -/

namespace Lens

/-- **What is to be seen of a story without carriage returns** so that it looks like the story with them. -/
def returned (story : List Char) : Lens where
  position p := p.shift (feedsBefore story p.offset)
  name := onOneLine
  text t := withReturns (withoutReturns t)
  text_append s t := by rw [withoutReturns_append, withReturns_append]

/-- Carriage returns are not seen, nor is what ends a line in a name. -/
def plain : Lens where
  position := id
  name := onOneLine
  text := withoutReturns
  text_append := withoutReturns_append

theorem returned_after {story pre : List Char} (h : pre <+: story) :
    (returned story).position (.after pre) = .after (addReturns pre) := by
  obtain ⟨rest, rfl⟩ := h
  change (Position.after pre).shift (feedsBefore (pre ++ rest) _) = _
  rw [feedsBefore_after, Position.after_addReturns]

theorem returned_zero (story : List Char) : (returned story).position .zero = .zero :=
  returned_after (List.nil_prefix (l := story))

/-- The order of places is kept. -/
theorem returned_lt_iff (story : List Char) (p q : Position) :
    ((returned story).position p).offset < ((returned story).position q).offset ↔ p.offset < q.offset := by
  change p.offset + feedsBefore story p.offset < q.offset + feedsBefore story q.offset ↔ _
  -- Before the later place there are no fewer line feeds than before the earlier one.
  constructor
  · intro h
    by_contra hle
    have hmono := feedsBefore_mono story (Nat.le_of_not_lt hle)
    omega
  · intro h
    have hmono := feedsBefore_mono story (Nat.le_of_lt h)
    omega

end Lens

namespace Likeness

/-- A story, and the story with carriage returns. -/
def returned (story : List Char) (first second : State) : Likeness where
  left := .returned story
  right := .clear
  first := first
  second := second
  union {r s r' s'} h h' := by
    change r.through (.returned story) = r' at h
    change s.through (.returned story) = s' at h'
    subst h h'
    simp only [Span.union, Span.through, Lens.returned_lt_iff, apply_ite (Lens.position _)]
    rfl

/-- A story, and the same story. -/
def plain (state : State) : Likeness where
  left := .plain
  right := .clear
  first := state
  second := state
  union {r s r' s'} h h' := by
    change r = r' at h
    change s = s' at h'
    subst h h'
    rfl

end Likeness

namespace Token.Counterpart

variable {story : List Char} {t u : Token}

theorem not_mem_return (h : t.Counterpart story u) (hstory : '\r' ∉ story) : '\r' ∉ t.text.toList := by
  obtain ⟨pre, hpre, -⟩ := h.place
  exact fun hmem => hstory (hpre.subset (List.mem_append_right _ hmem))

theorem not_mem_feed (h : t.Counterpart story u) (hkind : t.kind = .word) : '\n' ∉ t.text.toList := by
  obtain ⟨hend, -⟩ | ⟨-, hfeed⟩ := h.breaks
  · rw [hkind] at hend
    cases hend
  · exact hfeed

theorem text_eq (h : t.Counterpart story u) (hfeed : '\n' ∉ t.text.toList) : t.text = u.text := by
  rw [h.text, withReturns, addReturns_eq_self hfeed, String.ofList_toList]

theorem matches_returned (h : t.Counterpart story u) (hstory : '\r' ∉ story) (first second : State) :
    t.Matches (.returned story first second) u where
  kind := h.kind
  text := by
    obtain ⟨hkind, htext⟩ | ⟨-, hfeed⟩ := h.breaks
    · exact .inr ⟨hkind, .inl htext, .inr (by rw [h.text, htext]; rfl)⟩
    · exact .inl (h.text_eq hfeed)
  chars := by
    change withReturns (withoutReturns t.text) = u.text
    rw [withoutReturns_eq_self (h.not_mem_return hstory), h.text]
  name hkind := by
    change onOneLine t.text = u.text
    rw [onOneLine_eq_self (h.not_mem_feed hkind) (h.not_mem_return hstory), h.text_eq (h.not_mem_feed hkind)]
  start := by
    obtain ⟨pre, hpre, hstart, hstart'⟩ := h.place
    rw [hstart, hstart']
    exact Lens.returned_after ((List.prefix_append ..).trans hpre)
  stop := by
    obtain ⟨pre, hpre, hstop, hstop'⟩ := h.stop
    rw [hstop, hstop']
    exact Lens.returned_after hpre

theorem matches_plain (h : t.Counterpart story u) (hstory : '\r' ∉ story) (state : State) :
    t.Matches (.plain state) t where
  kind := rfl
  text := .inl rfl
  chars := withoutReturns_eq_self (h.not_mem_return hstory)
  name hkind := onOneLine_eq_self (h.not_mem_feed hkind) (h.not_mem_return hstory)
  start := rfl
  stop := rfl

end Token.Counterpart

/-! ### States -/

namespace State

/-- Matching tokens are read alike from the start. -/
theorem matches_ofTokens {k : Likeness} {ts us : List Token} (h : List.Forall₂ (Token.Matches k) ts us)
    {indentSize : Nat} (hfirst : k.first = .ofTokens ts indentSize) (hsecond : k.second = .ofTokens us indentSize)
    (hzero : Alike k Position.zero .zero) : (ofTokens ts indentSize).Matches k (.ofTokens us indentSize) where
  rest := by
    refine List.rel_filter (fun t u htu => ?_) h
    dsimp only
    rw [htu.kind]
  finish := by
    -- The file ends where its last token does, and the last tokens match.
    have hreverse := List.forall₂_reverse_iff.mpr h
    rw [ofTokens, ofTokens, ← List.head?_reverse, ← List.head?_reverse]
    generalize ts.reverse = vs at hreverse
    generalize us.reverse = ws at hreverse
    cases hreverse with
    | nil => exact hzero
    | cons hlast _ => exact hlast.stop
  cursor := by
    rw [hfirst, hsecond]
    rfl
  reports := by
    rw [hfirst, hsecond]
    exact .refl ..
  imports := by
    rw [hfirst, hsecond]
    exact .refl ..
  locals := rfl
  blocks := rfl
  depth := rfl
  indentSize := rfl

/-- **The story with carriage returns reads alike,** seen so. -/
theorem matches_returned {text : String} (h : '\r' ∉ text.toList) (indentSize : Nat) :
    (ofText text indentSize).Matches
      (.returned text.toList (ofText text indentSize) (ofText (withReturns text) indentSize))
      (ofText (withReturns text) indentSize) := by
  exact matches_ofTokens ((scan_counterparts h).imp fun t u htu => htu.matches_returned h _ _) rfl rfl
    (Lens.returned_zero _)

/-- A story without carriage returns looks as it is. -/
theorem matches_plain {text : String} (h : '\r' ∉ text.toList) (indentSize : Nat) :
    (ofText text indentSize).Matches (.plain (ofText text indentSize)) (ofText text indentSize) := by
  have hself {ts us : List Token} (hall : List.Forall₂ (Token.Counterpart text.toList) ts us) :
      List.Forall₂ (Token.Matches (.plain (ofText text indentSize))) ts ts := by
    induction hall with
    | nil => exact .nil
    | cons htu _ ih => exact .cons (htu.matches_plain h _) ih
  exact matches_ofTokens (hself (scan_counterparts h)) rfl rfl rfl

end State

end Story
