import Mathlib.Data.List.Chain
import Story.Token.Scan

/-!
# What cutting a text into tokens comes to

`scan` walks over a text and cuts off one token after the other. This file says which list of tokens
that is without walking: `Tokenizes` lists what has to hold of each token where it stands.

* `Spelling.IsLongest` — the longest spelling of a table that a text starts with, which is what the search
  finds there, as the longest are tried first (`isLongest_of_eq_some`);
* `Unbroken` — no spelling starts inside a word, be it that it ends after the word, and `Plain` — no
  spelling lies within a word. The second says less: a carriage return at the end of a word and the
  line feed after it make up one spelling, though neither the word nor the return is one;
* `Scanner.tokenizes_iff` — with unbroken words, the tokens of a scanner are the only ones that tokenize
  its text. With plain words they are not (`plain_tokenization_not_unique`).

The table is a parameter throughout. All that is asked of it is `Spelling.Lawful`: no spelling is empty,
and two spellings with the same text are of the same kind, which is that of a sign.
-/

namespace Story

/-! ### Spellings -/

namespace Spelling

/-- The longest spelling of the table that a text starts with. -/
structure IsLongest (table : List Spelling) (s : Spelling) (cs : List Char) : Prop where
  mem : s ∈ table
  starts : s.text <+: cs
  longest : ∀ s' ∈ table, s'.text <+: cs → s'.text.length ≤ s.text.length

/-- What is asked of a table of spellings. -/
structure Lawful (table : List Spelling) : Prop where
  nonempty : ∀ s ∈ table, s.text ≠ []
  functional : ∀ s ∈ table, ∀ s' ∈ table, s.text = s'.text → s.kind = s'.kind
  isSign : ∀ s ∈ table, s.kind ≠ .word ∧ s.kind ≠ .endfile

variable {table : List Spelling} {s s' : Spelling} {cs : List Char}

/-- Two longest spellings are the same text of the same kind. -/
theorem IsLongest.unique (hl : Lawful table) (h : IsLongest table s cs) (h' : IsLongest table s' cs) :
    s.text = s'.text ∧ s.kind = s'.kind := by
  have hlen : s.text.length = s'.text.length :=
    Nat.le_antisymm (h'.longest s h.mem h.starts) (h.longest s' h'.mem h'.starts)
  -- Two starts of the same text that are equally long are the same.
  have htext : s.text = s'.text :=
    (List.prefix_of_prefix_length_le h.starts h'.starts hlen.le).eq_of_length hlen
  exact ⟨htext, hl.functional s h.mem s' h'.mem htext⟩

/-! ### Spellings by length -/

/-- No spelling is shorter than one that is tried after it. -/
abbrev Descending (tried : List Spelling) : Prop := tried.Pairwise fun s t => t.text.length ≤ s.text.length

theorem mem_insert {ts : List Spelling} : s' ∈ s.insert ts ↔ s' = s ∨ s' ∈ ts := by
  induction ts with
  | nil => rw [insert, List.mem_singleton, List.mem_nil_iff, or_false]
  | cons t ts ih =>
    rw [insert]
    split
    · exact List.mem_cons
    · rw [List.mem_cons, ih, List.mem_cons, or_left_comm]

theorem Descending.insert {ts : List Spelling} (h : Descending ts) (s : Spelling) : Descending (s.insert ts) := by
  induction ts with
  | nil => exact List.pairwise_singleton _ _
  | cons t ts ih =>
    obtain ⟨ht, hts⟩ := List.pairwise_cons.mp h
    rw [Spelling.insert]
    split
    · next hle =>
      refine List.pairwise_cons.mpr ⟨List.forall_mem_cons.mpr ⟨hle, fun u hu => ?_⟩, h⟩
      exact (ht u hu).trans hle
    · next hlt =>
      refine List.pairwise_cons.mpr ⟨fun u hu => ?_, ih hts⟩
      obtain rfl | hu := mem_insert.mp hu
      · exact Nat.le_of_not_le hlt
      · exact ht u hu

theorem mem_byLength : s ∈ byLength table ↔ s ∈ table := by
  induction table with
  | nil => rfl
  | cons t table ih => rw [byLength, List.foldr_cons, ← byLength, mem_insert, ih, List.mem_cons]

theorem descending_byLength (table : List Spelling) : Descending (byLength table) := by
  induction table with
  | nil => exact .nil
  | cons t table ih => exact ih.insert t

end Spelling

open Spelling

section Table

variable {table : List Spelling} {s : Spelling} {cs : List Char}

/-- The spelling that is found at the start of a text. -/
def longestSpelling (table : List Spelling) (cs : List Char) : Option Spelling := firstSpelling (byLength table) cs

theorem longestSpelling_eq_none :
    longestSpelling table cs = none ↔ ∀ s ∈ table, ¬s.text <+: cs := by
  simp only [longestSpelling, firstSpelling, List.find?_eq_none, mem_byLength, List.isPrefixOf_iff_prefix]

/-- **The first spelling that is found is the longest one.** -/
theorem isLongest_of_eq_some (h : longestSpelling table cs = some s) : IsLongest table s cs := by
  obtain ⟨hstarts, before, after, htried, hbefore⟩ := List.find?_eq_some_iff_append.mp h
  have hsorted : Descending (before ++ s :: after) := htried ▸ descending_byLength table
  have hmem {s' : Spelling} : s' ∈ table ↔ s' ∈ before ++ s :: after := by rw [← htried, mem_byLength]
  refine ⟨hmem.mpr (List.mem_append_right _ List.mem_cons_self), List.isPrefixOf_iff_prefix.mp hstarts, ?_⟩
  intro s' hs' hprefix
  -- Another spelling that the text starts with is not tried before, and so it is not longer.
  obtain hs' | hs' := List.mem_append.mp (hmem.mp hs')
  · have hnot := hbefore s' hs'
    rw [List.isPrefixOf_iff_prefix.mpr hprefix] at hnot
    cases hnot
  · obtain rfl | hs' := List.mem_cons.mp hs'
    · exact Nat.le_refl _
    · exact (List.pairwise_cons.mp (List.pairwise_append.mp hsorted).2.1).1 s' hs'

/-- A text that a spelling starts has a longest spelling. -/
theorem isSome_longestSpelling (hs : s ∈ table) (h : s.text <+: cs) :
    (longestSpelling table cs).isSome = true := by
  rw [Option.isSome_iff_ne_none]
  exact fun hn => longestSpelling_eq_none.mp hn s hs h

/-! ### Words -/

/-- No spelling starts inside the word, where `rest` comes after it. -/
def Unbroken (table : List Spelling) (word rest : List Char) : Prop :=
  ∀ before inside, word = before ++ inside → inside ≠ [] → ∀ s ∈ table, ¬s.text <+: inside ++ rest

/-- No spelling lies within the word. -/
def Plain (table : List Spelling) (word _rest : List Char) : Prop :=
  ∀ s ∈ table, ¬s.text <:+: word

/-- A spelling that lies within a word starts in it. -/
theorem Unbroken.plain (hl : Lawful table) {word rest : List Char} (h : Unbroken table word rest) :
    Plain table word rest := by
  rintro s hs ⟨before, after, hw⟩
  refine h before (s.text ++ after) (by rw [← hw, List.append_assoc]) ?_ s hs ?_
  · simp [hl.nonempty s hs]
  · rw [List.append_assoc]
    exact List.prefix_append _ _

theorem unbroken_cons {c : Char} {word rest : List Char} :
    Unbroken table (c :: word) rest ↔
      longestSpelling table (c :: (word ++ rest)) = none ∧ Unbroken table word rest := by
  rw [longestSpelling_eq_none]
  -- What is inside of `c :: word` is the whole of it, or it is inside of `word`.
  constructor
  · intro h
    refine ⟨h [] (c :: word) rfl (List.cons_ne_nil _ _), fun before inside hw => ?_⟩
    exact h (c :: before) inside (congrArg (c :: ·) hw)
  · rintro ⟨hc, hw⟩ before inside heq hi
    cases before with
    | nil =>
      cases heq
      exact hc
    | cons b before => exact hw before inside (List.cons.inj heq).2 hi

/-- A place where the text ends or a spelling starts, so that a word ends there. -/
def IsWordEnd (table : List Spelling) (rest : List Char) : Prop :=
  rest = [] ∨ (longestSpelling table rest).isSome = true

/-- The text up to the first place where a spelling of the table is found. -/
def wordAt (table : List Spelling) (cs : List Char) : List Char := ((search (byLength table) cs).map Prod.fst).getD cs

theorem wordAt_cons (table : List Spelling) (c : Char) (cs : List Char) :
    wordAt table (c :: cs) = if (longestSpelling table (c :: cs)).isSome then [] else c :: wordAt table cs := by
  rw [wordAt, search, ← longestSpelling]
  cases longestSpelling table (c :: cs) with
  | some s => rfl
  | none => cases hfound : search (byLength table) cs <;> simp [wordAt, hfound]

/-- **The first token of a text** is the longest spelling there, or a word. -/
theorem lexeme_of_ne_nil (table : List Spelling) (hcs : cs ≠ []) :
    lexeme table cs = match longestSpelling table cs with
      | some s => (s.kind, s.text)
      | none => (.word, wordAt table cs) := by
  obtain ⟨c, cs, rfl⟩ := List.exists_cons_of_ne_nil hcs
  rw [lexeme, wordAt, search, ← longestSpelling]
  cases longestSpelling table (c :: cs) with
  | some s => rfl
  | none => cases search (byLength table) cs <;> rfl

/-- The word at the start of a text is unbroken and goes on until it has to end. -/
theorem wordAt_spec (table : List Spelling) (cs : List Char) :
    ∃ rest, cs = wordAt table cs ++ rest ∧ Unbroken table (wordAt table cs) rest ∧
      IsWordEnd table rest := by
  induction cs with
  | nil => exact ⟨[], rfl, fun _ _ h hi => absurd (List.append_eq_nil_iff.mp h.symm).2 hi, .inl rfl⟩
  | cons c cs ih =>
    rw [wordAt_cons]
    split
    · -- A spelling starts here, and the word ends before it.
      next h =>
      exact ⟨c :: cs, rfl, fun _ _ h hi => absurd (List.append_eq_nil_iff.mp h.symm).2 hi, .inr h⟩
    · -- No spelling starts at `c`, so the word goes on.
      next h =>
      obtain ⟨rest, hcs, hw, hr⟩ := ih
      refine ⟨rest, congrArg (c :: ·) hcs, unbroken_cons.mpr ⟨?_, hw⟩, hr⟩
      rw [← hcs]
      simpa using h

/-- An unbroken word that goes on until it has to end is the word at the start of the text. -/
theorem wordAt_append {word rest : List Char} (hw : Unbroken table word rest)
    (hr : IsWordEnd table rest) : wordAt table (word ++ rest) = word := by
  induction word with
  | nil =>
    cases rest with
    | nil => rfl
    | cons c rest =>
      obtain h | h := hr
      · cases h
      · simp [wordAt_cons, h]
  | cons c word ih =>
    obtain ⟨hc, hw⟩ := unbroken_cons.mp hw
    rw [List.cons_append, wordAt_cons, hc, ih hw]
    rfl

end Table

/-! ### Tokens where they stand -/

theorem Position.offset_step (p : Position) (c : Char) : (p.step c).offset = p.offset + c.utf8Size := by
  unfold step
  split
  · next h => rw [h]; rfl
  · rfl

/-- Going over characters moves on by their bytes. -/
theorem Position.offset_foldl_step (cs : List Char) (p : Position) :
    (cs.foldl step p).offset = p.offset + (String.ofList cs).utf8ByteSize := by
  induction cs generalizing p with
  | nil => simp
  | cons c cs ih =>
    calc
      ((c :: cs).foldl step p).offset = (p.step c).offset + (String.ofList cs).utf8ByteSize := ih _
      _ = p.offset + (c.utf8Size + (String.ofList cs).utf8ByteSize) := by rw [offset_step, Nat.add_assoc]
      _ = p.offset + (String.ofList (c :: cs)).utf8ByteSize := by simp [String.ofList_cons]

/-- Going over a text moves on by its bytes. -/
theorem Position.offset_advance (p : Position) (text : String) :
    (p.advance text).offset = p.offset + text.utf8ByteSize := by
  rw [advance, offset_foldl_step, String.ofList_toList]

theorem Position.advance_append (p : Position) (text text' : String) :
    p.advance (text ++ text') = (p.advance text).advance text' := by
  unfold advance
  rw [String.toList_append, List.foldl_append]

namespace Token

/-- The text that tokens make up. -/
def joined (ts : List Token) : String := String.join (ts.map text)

@[simp] theorem joined_nil : joined [] = "" := rfl

theorem joined_append (ts ts' : List Token) : joined (ts ++ ts') = joined ts ++ joined ts' := by
  apply String.ext
  simp [joined, String.toList_join]

theorem joined_cons (t : Token) (ts : List Token) : joined (t :: ts) = t.text ++ joined ts := by
  apply String.ext
  simp [joined, String.toList_join]

/-- What a token with text has to be, where `rest` comes after it: a word as `IsWord` asks for, or
the longest spelling that the text starts with there. -/
def IsCut (table : List Spelling) (IsWord : List Char → List Char → Prop) (t : Token)
    (rest : List Char) : Prop :=
  (t.kind = .word ∧ IsWord t.text.toList rest) ∨
    ∃ s, IsLongest table s (t.text.toList ++ rest) ∧ t.kind = s.kind ∧ t.text.toList = s.text

end Token

/-- **The tokens of a text** that starts at the place `p`, said of each token where it stands. -/
structure Tokenizes (table : List Spelling) (IsWord : List Char → List Char → Prop) (p : Position)
    (text : List Char) (ts : List Token) : Prop where
  /-- The tokens make up the text. -/
  joined : (Token.joined ts).toList = text
  /-- The end of the file comes once, at the end, and is the only token without text. -/
  ended : ∃ before last, ts = before ++ [last] ∧ last.kind = .endfile ∧ last.text = "" ∧
    ∀ t ∈ before, t.kind ≠ .endfile ∧ t.text ≠ ""
  /-- No two words are next to each other. -/
  parted : ts.IsChain fun t t' => ¬(t.kind = .word ∧ t'.kind = .word)
  /-- Every other token is a word or a longest spelling. -/
  cut : ∀ before t after, ts = before ++ t :: after → t.kind ≠ .endfile →
    t.IsCut table IsWord (Token.joined after).toList
  /-- Every token starts and stops where the text up to there leads. -/
  placed : ∀ before t after, ts = before ++ t :: after →
    t.start = p.advance (Token.joined before) ∧ t.stop = p.advance (Token.joined (before ++ [t]))

namespace Tokenizes

variable {table : List Spelling} {IsWord IsWord' : List Char → List Char → Prop} {p : Position}
  {text : List Char} {t : Token} {ts : List Token}

theorem start_eq (h : Tokenizes table IsWord p text (t :: ts)) : t.start = p :=
  (h.placed [] t ts rfl).1

/-- The end of the file by itself. -/
theorem endfile (table : List Spelling) (IsWord : List Char → List Char → Prop) (p : Position) :
    Tokenizes table IsWord p [] [.endfile p] where
  joined := rfl
  ended := ⟨[], .endfile p, rfl, rfl, rfl, List.forall_mem_nil _⟩
  parted := .singleton _
  cut before t after h hk := by
    -- There is one token, so this is the only place for it.
    obtain ⟨-, rfl, -⟩ : before = [] ∧ t = .endfile p ∧ after = [] := by
      cases before <;> simp_all
    exact absurd rfl hk
  placed before t after h := by
    obtain ⟨rfl, rfl, -⟩ : before = [] ∧ t = .endfile p ∧ after = [] := by
      cases before <;> simp_all
    exact ⟨rfl, rfl⟩

/-- At the end of the file there is nothing else. -/
theorem eq_endfile (h : Tokenizes table IsWord p text (t :: ts)) (hk : t.kind = .endfile) :
    text = [] ∧ t :: ts = [.endfile p] := by
  obtain ⟨before, last, heq, -, htext, hbefore⟩ := h.ended
  cases before with
  | nil =>
    -- The first token is the last one; the text of the last one is empty.
    obtain ⟨rfl, rfl⟩ := List.cons.inj heq
    have hj : Token.joined [t] = "" := by rw [Token.joined_cons, htext, Token.joined_nil]; rfl
    refine ⟨by rw [← h.joined, hj]; rfl, ?_⟩
    rw [← h.start_eq]
    cases t
    simp_all [Token.endfile]
  | cons b before =>
    obtain ⟨rfl, -⟩ := List.cons.inj heq
    exact absurd hk (hbefore t List.mem_cons_self).1

/-- The tokens after the first one tokenize the text after it. -/
theorem tail (h : Tokenizes table IsWord p text (t :: ts)) (hk : t.kind ≠ .endfile) :
    Tokenizes table IsWord t.stop (Token.joined ts).toList ts where
  joined := rfl
  ended := by
    obtain ⟨before, last, heq, hlast, htext, hbefore⟩ := h.ended
    cases before with
    | nil =>
      obtain ⟨rfl, -⟩ := List.cons.inj heq
      exact absurd hlast hk
    | cons b before =>
      obtain ⟨-, rfl⟩ := List.cons.inj heq
      exact ⟨before, last, rfl, hlast, htext, fun t ht => hbefore t (List.mem_cons_of_mem _ ht)⟩
  parted := h.parted.tail
  cut before t' after heq hk' := h.cut (t :: before) t' after (congrArg (t :: ·) heq) hk'
  placed before t' after heq := by
    obtain ⟨hstart, hstop⟩ := h.placed (t :: before) t' after (congrArg (t :: ·) heq)
    -- Both places are reached by going over the first token first.
    have hp : t.stop = p.advance t.text := by rw [Token.stop, h.start_eq]
    rw [hstart, hstop, List.cons_append, Token.joined_cons, Token.joined_cons,
      Position.advance_append, Position.advance_append, hp]
    exact ⟨rfl, rfl⟩

/-- One token more at the front. -/
theorem cons (h : Tokenizes table IsWord t.stop text ts) (hk : t.kind ≠ .endfile) (ht : t.text ≠ "")
    (hcut : t.IsCut table IsWord text)
    (hparted : ∀ t' ∈ ts.head?, ¬(t.kind = .word ∧ t'.kind = .word)) :
    Tokenizes table IsWord t.start (t.text.toList ++ text) (t :: ts) where
  joined := by rw [Token.joined_cons, String.toList_append, h.joined]
  ended := by
    obtain ⟨before, last, rfl, hlast, htext, hbefore⟩ := h.ended
    exact ⟨t :: before, last, rfl, hlast, htext, List.forall_mem_cons.mpr ⟨⟨hk, ht⟩, hbefore⟩⟩
  parted := List.isChain_cons.mpr ⟨hparted, h.parted⟩
  cut before t' after heq hk' := by
    -- It is the new token, or one of the others with the new one before it.
    cases before with
    | nil =>
      obtain ⟨rfl, rfl⟩ := List.cons.inj heq
      rwa [h.joined]
    | cons b before => exact h.cut before t' after (List.cons.inj heq).2 hk'
  placed before t' after heq := by
    cases before with
    | nil =>
      obtain ⟨rfl, rfl⟩ := List.cons.inj heq
      refine ⟨rfl, ?_⟩
      rw [List.nil_append, Token.joined_cons, Position.advance_append]
      rfl
    | cons b before =>
      obtain ⟨rfl, hts⟩ := List.cons.inj heq
      obtain ⟨hstart, hstop⟩ := h.placed before t' after hts
      rw [hstart, hstop, List.cons_append, Token.joined_cons, Token.joined_cons,
        Position.advance_append, Position.advance_append]
      exact ⟨rfl, rfl⟩

theorem text_ne_empty (h : Tokenizes table IsWord p text ts) (ht : t ∈ ts) (hk : t.kind ≠ .endfile) :
    t.text ≠ "" := by
  obtain ⟨before, last, rfl, hlast, -, hbefore⟩ := h.ended
  obtain ht | ht := List.mem_append.mp ht
  · exact (hbefore t ht).2
  · rw [List.mem_singleton.mp ht] at hk
    exact absurd hlast hk

/-- A word is followed by the end of the text or by a spelling. -/
theorem isWordEnd (h : Tokenizes table IsWord p text (t :: ts)) (hk : t.kind = .word) :
    IsWordEnd table (Token.joined ts).toList := by
  have htail := h.tail (by rw [hk]; decide)
  cases ts with
  | nil =>
    obtain ⟨_, _, heq, -⟩ := htail.ended
    exact absurd heq (by simp)
  | cons t' ts =>
    by_cases hk' : t'.kind = .endfile
    · exact .inl (htail.eq_endfile hk').1
    · -- Words do not follow each other, so it is a sign, and signs have spellings.
      have hnot : t'.kind ≠ .word := fun h' => (List.isChain_cons_cons.mp h.parted).1 ⟨hk, h'⟩
      obtain ⟨hword, -⟩ | ⟨s, hs, -, -⟩ := htail.cut [] t' ts rfl hk'
      · exact absurd hword hnot
      · rw [Token.joined_cons, String.toList_append]
        exact .inr (isSome_longestSpelling hs.mem hs.starts)

/-- Next to each other, tokens touch. -/
theorem touching (h : Tokenizes table IsWord p text ts) :
    ts.IsChain fun t t' => t.stop = t'.start := by
  induction ts generalizing p text with
  | nil => exact .nil
  | cons t ts ih =>
    cases ts with
    | nil => exact .singleton t
    | cons t' ts =>
      have hk : t.kind ≠ .endfile := fun hk => absurd (h.eq_endfile hk).2 (by simp)
      have htail := h.tail hk
      exact .cons_cons htail.start_eq.symm (ih htail)

/-- If a line feed is the end of a line wherever it is found, only ends of lines hold one. -/
theorem kind_eq_endline (h : Tokenizes table (Plain table) p text ts)
    (hfeed : ∃ s ∈ table, s.text = ['\n']) (hends : ∀ s ∈ table, '\n' ∈ s.text → s.kind = .endline) :
    ∀ t ∈ ts, '\n' ∈ t.text.toList → t.kind = .endline := by
  intro t ht hn
  obtain ⟨before, after, heq⟩ := List.append_of_mem ht
  by_cases hk : t.kind = .endfile
  · obtain ⟨_, last, hlast, -, htext, hbefore⟩ := h.ended
    rw [hlast, List.mem_append, List.mem_singleton] at ht
    obtain ht | rfl := ht
    · exact absurd hk (hbefore t ht).1
    · simp [htext] at hn
  obtain ⟨-, hplain⟩ | ⟨s, hs, hkind, htext⟩ := h.cut before t after heq hk
  · -- A word with a line feed in it would have a spelling in it.
    obtain ⟨s, hs, hfeed⟩ := hfeed
    refine absurd ?_ (hplain s hs)
    obtain ⟨front, back, hfront⟩ := List.append_of_mem hn
    exact ⟨front, back, by rw [hfeed, hfront, List.append_assoc]; rfl⟩
  · rw [hkind]
    exact hends s hs.mem (htext ▸ hn)

theorem imp (h : Tokenizes table IsWord p text ts)
    (himp : ∀ word rest, IsWord word rest → IsWord' word rest) :
    Tokenizes table IsWord' p text ts :=
  { h with
    cut := fun before t after heq hk => (h.cut before t after heq hk).imp_left fun hw =>
      ⟨hw.1, himp _ _ hw.2⟩ }

end Tokenizes

/-! ### The tokens of a scanner -/

section Scanner

variable {table : List Spelling} {p : Position}

/-- The first token is cut off as it has to be, and it is not empty. -/
theorem lexeme_spec (hl : Lawful table) (c : Char) (cs : List Char) (p : Position) :
    let t : Token := ⟨(lexeme table (c :: cs)).1, .ofList (lexeme table (c :: cs)).2, p⟩
    ∃ rest, c :: cs = t.text.toList ++ rest ∧ t.text ≠ "" ∧ t.kind ≠ .endfile ∧
      t.IsCut table (Unbroken table) rest ∧ (t.kind = .word → IsWordEnd table rest) := by
  rw [lexeme_of_ne_nil table (List.cons_ne_nil c cs)]
  split
  · -- A spelling makes it a sign, and a sign is no word.
    next s h =>
    have hs := isLongest_of_eq_some h
    obtain ⟨rest, hrest⟩ := hs.starts
    obtain ⟨hword, hend⟩ := hl.isSign s hs.mem
    refine ⟨rest, by simp [hrest], ?_, hend, .inr ⟨s, ?_, rfl, by simp⟩, fun h => absurd h hword⟩
    · simpa using hl.nonempty s hs.mem
    · simpa [hrest] using hs
  · -- No spelling starts here, so the word at the start of the text has a first character.
    next h =>
    obtain ⟨rest, hcs, hunbroken, hrest⟩ := wordAt_spec table (c :: cs)
    refine ⟨rest, by simpa using hcs, ?_, nofun, .inl ⟨rfl, by simpa using hunbroken⟩, fun _ => hrest⟩
    simp [wordAt_cons, h]

/-- What is cut off as it has to be is the first token. -/
theorem lexeme_eq (hl : Lawful table) {t : Token} {rest : List Char} (ht : t.text ≠ "")
    (hcut : t.IsCut table (Unbroken table) rest) (hend : t.kind = .word → IsWordEnd table rest) :
    lexeme table (t.text.toList ++ rest) = (t.kind, t.text.toList) := by
  have hne : t.text.toList ++ rest ≠ [] :=
    List.append_ne_nil_of_left_ne_nil (fun hnil => ht (String.ext hnil)) _
  rw [lexeme_of_ne_nil table hne]
  obtain ⟨hk, hunbroken⟩ | ⟨s, hs, hk, htext⟩ := hcut
  · -- An unbroken word has no spelling at its start either.
    have hnone : longestSpelling table (t.text.toList ++ rest) = none := by
      rcases hc : t.text.toList with _ | ⟨c, cs⟩
      · exact absurd (String.ext hc) ht
      · rw [hc] at hunbroken
        exact (unbroken_cons.mp hunbroken).1
    rw [hnone, wordAt_append hunbroken (hend hk), hk]
  · -- Another spelling is found only if it is as long, and then it has the same text and kind.
    obtain ⟨s', hs'⟩ := Option.isSome_iff_exists.mp (isSome_longestSpelling hs.mem hs.starts)
    obtain ⟨htext', hk'⟩ := hs.unique hl (isLongest_of_eq_some hs')
    rw [hs', hk, hk', htext, htext']

namespace Scanner

theorem tokens_end : (⟨some [], p⟩ : Scanner).tokens table = [.endfile p] := by
  rw [tokens]
  change Token.endfile p :: tokens table ⟨none, p⟩ = _
  rw [tokens]
  rfl

/-- A scanner before a text whose first token is `t` gives out `t`. -/
theorem next?_append {t : Token} {rest : List Char} (ht : t.text ≠ "")
    (h : lexeme table (t.text.toList ++ rest) = (t.kind, t.text.toList)) :
    (⟨some (t.text.toList ++ rest), t.start⟩ : Scanner).next? table =
      some (t, ⟨some rest, t.stop⟩) := by
  rcases hc : t.text.toList with _ | ⟨c, cs⟩
  · exact absurd (String.ext hc) ht
  rw [hc] at h
  have htext : String.ofList (c :: cs) = t.text := by rw [← hc, String.ofList_toList]
  simp only [next?, List.cons_append]
  rw [← List.cons_append, h]
  simp only [htext, List.length_cons, Nat.add_sub_cancel, List.drop_left]

theorem tokens_append {t : Token} {rest : List Char} (ht : t.text ≠ "")
    (h : lexeme table (t.text.toList ++ rest) = (t.kind, t.text.toList)) :
    (⟨some (t.text.toList ++ rest), t.start⟩ : Scanner).tokens table =
      t :: (⟨some rest, t.stop⟩ : Scanner).tokens table := by
  rw [tokens]
  split
  · next hnext =>
    rw [next?_append ht h] at hnext
    cases hnext
  · next hnext =>
    rw [next?_append ht h] at hnext
    cases hnext
    rfl

/-- Where a word has to end, the next token is no word. -/
theorem head_tokens_ne_word (hl : Lawful table) {rest : List Char} (h : IsWordEnd table rest) :
    ∀ t ∈ ((⟨some rest, p⟩ : Scanner).tokens table).head?, t.kind ≠ .word := by
  obtain rfl | h := h
  · rw [tokens_end]
    rintro t ⟨⟩
    exact TokenKind.noConfusion
  · obtain ⟨s, hs⟩ := Option.isSome_iff_exists.mp h
    have hmem := (isLongest_of_eq_some hs).mem
    rcases rest with _ | ⟨c, cs⟩
    · -- A spelling that starts an empty text would be empty.
      have hnil := (isLongest_of_eq_some hs).starts
      exact absurd (List.prefix_nil.mp hnil) (hl.nonempty s hmem)
    · rw [tokens]
      split
      · next hnext => cases hnext
      · next hnext =>
        cases hnext
        rintro t ⟨⟩
        change (lexeme table (c :: cs)).1 ≠ .word
        rw [lexeme_of_ne_nil table (List.cons_ne_nil c cs), hs]
        exact (hl.isSign s hmem).1

/-- The tokens of a scanner tokenize its text. -/
theorem tokenizes_tokens (hl : Lawful table) (cs : List Char) (p : Position) :
    Tokenizes table (Unbroken table) p cs ((⟨some cs, p⟩ : Scanner).tokens table) := by
  induction hn : cs.length using Nat.strong_induction_on generalizing cs p with
  | _ n ih =>
    rcases cs with _ | ⟨c, cs⟩
    · rw [tokens_end]
      exact .endfile table _ p
    obtain ⟨rest, hcs, ht, hk, hcut, hend⟩ := lexeme_spec hl c cs p
    generalize htoken : (⟨(lexeme table (c :: cs)).1, .ofList (lexeme table (c :: cs)).2, p⟩ : Token) = t
      at hcs ht hk hcut hend
    have hp : t.start = p := by rw [← htoken]
    -- The first token is not empty, so the induction goes on with a shorter text.
    have hlen : rest.length < n := by
      have hpos : 0 < t.text.toList.length := by
        rw [List.length_pos_iff]
        exact fun h => ht (String.ext h)
      rw [← hn, hcs, List.length_append]
      omega
    rw [hcs, ← hp, tokens_append ht (lexeme_eq hl ht hcut hend)]
    refine (ih _ hlen rest t.stop rfl).cons hk ht hcut fun t' ht' hw => ?_
    exact head_tokens_ne_word hl (hend hw.1) t' ht' hw.2

/-- Nothing else tokenizes its text. -/
theorem eq_tokens_of_tokenizes (hl : Lawful table) {text : List Char} {ts : List Token}
    (h : Tokenizes table (Unbroken table) p text ts) :
    ts = (⟨some text, p⟩ : Scanner).tokens table := by
  induction ts generalizing p text with
  | nil =>
    obtain ⟨_, _, heq, -⟩ := h.ended
    exact absurd heq (by simp)
  | cons t ts ih =>
    by_cases hk : t.kind = .endfile
    · obtain ⟨rfl, hts⟩ := h.eq_endfile hk
      rw [hts, tokens_end]
    · -- The scanner cuts off the first token first, and goes on after it with the others.
      have ht := h.text_ne_empty List.mem_cons_self hk
      have htext : text = t.text.toList ++ (Token.joined ts).toList := by
        rw [← h.joined, Token.joined_cons, String.toList_append]
      have hlexeme := lexeme_eq hl ht (h.cut [] t ts rfl hk) h.isWordEnd
      calc
        t :: ts = t :: (⟨some (Token.joined ts).toList, t.stop⟩ : Scanner).tokens table := by
          rw [← ih (h.tail hk)]
        _ = (⟨some (t.text.toList ++ (Token.joined ts).toList), t.start⟩ : Scanner).tokens table :=
          (tokens_append ht hlexeme).symm
        _ = (⟨some text, p⟩ : Scanner).tokens table := by rw [← htext, h.start_eq]

/-- **The tokens of a scanner are the only ones that tokenize its text.** -/
theorem tokenizes_iff (hl : Lawful table) {text : List Char} {ts : List Token} :
    Tokenizes table (Unbroken table) p text ts ↔ ts = (⟨some text, p⟩ : Scanner).tokens table :=
  ⟨eq_tokens_of_tokenizes hl, fun h => h ▸ tokenizes_tokens hl text p⟩

/-- The scanner after as many tokens. -/
def after (table : List Spelling) : Nat → Scanner → Scanner
  | 0, s => s
  | n + 1, s =>
    match s.next? table with
    | none => s
    | some (_, s') => after table n s'

/-- The tokens of a scanner are what it gives out, one by one until it gives out nothing. -/
theorem getElem?_tokens (n : Nat) (s : Scanner) :
    (s.tokens table)[n]? = ((s.after table n).next? table).map Prod.fst := by
  induction n generalizing s with
  | zero =>
    rw [tokens, after]
    split
    · next h => rw [h]; rfl
    · next h => rw [h]; rfl
  | succ n ih =>
    rw [tokens, after]
    split
    · next h => simp only [h, List.getElem?_nil, Option.map_none]
    · next h => simp only [h, List.getElem?_cons_succ, ih]

end Scanner

end Scanner

/-! ### The tokens of a text -/

theorem TokenKind.spellings_lawful : Lawful TokenKind.spellings where
  nonempty := by decide
  functional := by decide
  isSign := by decide

/-- Plain words do not settle the tokens of a text: a carriage return before a line feed may just as
well go with the word before it, as neither the word nor the carriage return is a spelling. -/
theorem plain_tokenization_not_unique :
    ¬∃! ts, Tokenizes TokenKind.spellings (Plain TokenKind.spellings) .zero "a\r\n".toList ts := by
  have hl := TokenKind.spellings_lawful
  let word : Token := ⟨.word, "a\r", .zero⟩
  let feed : Token := ⟨.endline, "\n", word.stop⟩
  have hfeed : Tokenizes TokenKind.spellings (Plain TokenKind.spellings) word.stop
      (feed.text.toList ++ []) [feed, .endfile feed.stop] :=
    (Tokenizes.endfile _ _ feed.stop).cons (t := feed) (by decide) (by decide)
      (.inr ⟨⟨['\n'], .endline⟩, ⟨by decide, by decide, by decide⟩, rfl, by decide⟩) (by decide)
  have hother : Tokenizes TokenKind.spellings (Plain TokenKind.spellings) .zero
      (word.text.toList ++ (feed.text.toList ++ [])) [word, feed, .endfile feed.stop] :=
    hfeed.cons (t := word) (by decide) (by decide) (.inl ⟨rfl, by unfold Plain; decide⟩) (by decide)
  have htext : word.text.toList ++ (feed.text.toList ++ []) = "a\r\n".toList := by decide
  rw [htext] at hother
  rintro ⟨ts, -, hunique⟩
  -- The scanner's own tokens are plain too, so they would be the ones above, whose word is broken.
  have hscan := Scanner.tokenizes_tokens hl "a\r\n".toList .zero
  rw [hunique _ (hscan.imp fun _ _ => Unbroken.plain hl), ← hunique _ hother] at hscan
  obtain ⟨-, hword⟩ | ⟨s, hs, hk, -⟩ := hscan.cut [] word _ rfl (by decide)
  · exact hword ['a'] ['\r'] (by decide) (by decide) ⟨['\r', '\n'], .endline⟩ (by decide) (by decide)
  · exact (hl.isSign s hs.mem).1 hk.symm

/-- **The tokens of a text.** They are the one list that tokenizes it with unbroken words, and so one
of those that tokenize it with plain words. They touch, only the ends of lines among them hold a line
feed, and the bytes between their places are the bytes of their texts. A scanner gives them out one by
one. -/
theorem tokenizes_iff_eq_scan (text : String) :
    (∀ ts, Tokenizes TokenKind.spellings (Unbroken TokenKind.spellings) .zero text.toList ts ↔
        ts = scan text) ∧
      Tokenizes TokenKind.spellings (Plain TokenKind.spellings) .zero text.toList (scan text) ∧
      ((scan text).IsChain fun t t' => t.stop = t'.start) ∧
      (∀ t ∈ scan text, '\n' ∈ t.text.toList → t.kind = .endline) ∧
      (∀ t ∈ scan text, t.size = t.span.size) ∧
      ∀ n, (scan text)[n]? =
        (((Scanner.ofText text).after TokenKind.spellings n).next? TokenKind.spellings).map Prod.fst := by
  have hl := TokenKind.spellings_lawful
  have hscan : Tokenizes TokenKind.spellings (Plain TokenKind.spellings) .zero text.toList (scan text) :=
    (Scanner.tokenizes_tokens hl text.toList .zero).imp fun _ _ => Unbroken.plain hl
  refine ⟨fun ts => Scanner.tokenizes_iff hl, hscan, hscan.touching, ?_, ?_, ?_⟩
  · exact hscan.kind_eq_endline (by decide) (by decide)
  · intro t _
    simp only [Token.size, Span.size, Token.span, Token.stop, Position.offset_advance,
      Nat.add_sub_cancel_left]
  · exact fun n => Scanner.getElem?_tokens n _

end Story
