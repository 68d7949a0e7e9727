import Story.Proofs.Places

/-!
# Comment signs taken apart

A text is cut with all spellings, and comment signs are then split into the signs that they are made of.
What comes out is what one gets by cutting the text with a table that has no comment signs in it
(`splitComments_scan_eq`), although the two cuts pair up characters differently: in `/*/` the first one
takes a star to the slash before it, and in `**/` to the slash after it.

The reason is that slash and star are spelled by themselves and that, comment signs apart, no other
spelling has one of them in it (`TokenKind.IsSign`). So the smaller table cuts each of them off alone
(`TokenKind.IsSign.isLongest`), and since they end a word with either table, the words are the same
(`IsWordEnd.plain`). From there the tokens are gone through one by one (`Tokenizes.splitComments`), and a
text has only one list of tokens for each table.
-/

namespace Story

open Spelling

namespace TokenKind

/-! ### The table without comment signs -/

/-- The texts of comment signs. -/
def commentSigns : List (List Char) := [['/', '/'], ['/', '*'], ['*', '/']]

/-- The spellings without comment signs. -/
def plainSpellings : List Spelling := spellings.filter fun s => s.text ∉ commentSigns

theorem isComment_iff : ∀ s ∈ spellings, s.kind.isComment = true ↔ s.text ∈ commentSigns := by
  decide

/-- What was left out are the spellings of the kinds of comment signs. -/
theorem mem_plainSpellings {s : Spelling} :
    s ∈ plainSpellings ↔ s ∈ spellings ∧ s.kind.isComment = false := by
  unfold plainSpellings
  rw [List.mem_filter, decide_eq_true_iff]
  refine and_congr_right fun hs => ?_
  rw [← isComment_iff s hs, Bool.not_eq_true]

theorem plainSpellings_lawful : Lawful plainSpellings where
  nonempty s hs := spellings_lawful.nonempty s (mem_plainSpellings.mp hs).1
  functional s hs s' hs' :=
    spellings_lawful.functional s (mem_plainSpellings.mp hs).1 s' (mem_plainSpellings.mp hs').1
  isSign s hs := spellings_lawful.isSign s (mem_plainSpellings.mp hs).1

/-- Comment signs are made of signs that are spelled by themselves. -/
theorem isSign_ofChar {s : Spelling} (hs : s ∈ spellings) (hk : s.kind.isComment = true) :
    ∀ c ∈ s.text, (ofChar c).IsSign c := by
  have hslash : (ofChar '/').IsSign '/' := by decide
  have hstar : (ofChar '*').IsSign '*' := by decide
  have htext := (isComment_iff s hs).mp hk
  unfold commentSigns at htext
  intro c hc
  have hc : c = '/' ∨ c = '*' := by grind
  obtain rfl | rfl := hc
  · exact hslash
  · exact hstar

variable {k : TokenKind} {c : Char}

theorem IsSign.isComment_eq_false (h : k.IsSign c) : k.isComment = false := by
  have hsingle : ∀ s ∈ spellings, s.text.length = 1 → s.kind.isComment = false := by decide
  exact hsingle _ h.1 rfl

/-- Without comment signs, a sign is the longest spelling wherever it stands. -/
theorem IsSign.isLongest (h : k.IsSign c) (rest : List Char) :
    IsLongest plainSpellings ⟨[c], k⟩ (c :: rest) where
  mem := mem_plainSpellings.mpr ⟨h.1, h.isComment_eq_false⟩
  starts := ⟨rest, rfl⟩
  longest s hs hstarts := by
    obtain ⟨hs, hk⟩ := mem_plainSpellings.mp hs
    obtain ⟨d, cs, htext⟩ := List.exists_cons_of_ne_nil (spellings_lawful.nonempty s hs)
    -- A spelling that starts here has the sign as its first character.
    have hd : c = d := by
      rw [htext, List.cons_prefix_cons] at hstarts
      exact hstarts.1.symm
    rw [h.2 s hs hk (by simp [htext, hd])]

end TokenKind

open TokenKind

/-! ### Words -/

/-- Fewer spellings break fewer words. -/
theorem Unbroken.plain_table {word rest : List Char} (h : Unbroken spellings word rest) :
    Unbroken plainSpellings word rest :=
  fun before inside hword hi s hs => h before inside hword hi s (mem_plainSpellings.mp hs).1

/-- Words still end where a comment sign starts, as a sign of its own starts there. -/
theorem IsWordEnd.plain {rest : List Char} (h : IsWordEnd spellings rest) :
    IsWordEnd plainSpellings rest := by
  obtain rfl | h := h
  · exact .inl rfl
  refine .inr ?_
  obtain ⟨s, hs⟩ := Option.isSome_iff_exists.mp h
  have hlongest := isLongest_of_eq_some hs
  cases hk : s.kind.isComment with
  | false =>
    exact isSome_longestSpelling (mem_plainSpellings.mpr ⟨hlongest.mem, hk⟩) hlongest.starts
  -- A comment sign is not among these spellings, but its first character is.
  | true =>
    obtain ⟨c, cs, htext⟩ := List.exists_cons_of_ne_nil (spellings_lawful.nonempty s hlongest.mem)
    have hsign := isSign_ofChar hlongest.mem hk c (by simp [htext])
    obtain ⟨after, rfl⟩ := hlongest.starts
    rw [htext]
    exact isSome_longestSpelling (hsign.isLongest (cs ++ after)).mem (hsign.isLongest _).starts

/-! ### Tokens -/

/-- A token that is no comment sign is cut off in the same way without comment signs. -/
theorem Token.IsCut.plain {t : Token} {rest : List Char}
    (h : t.IsCut spellings (Unbroken spellings) rest) (hk : t.kind.isComment = false) :
    t.IsCut plainSpellings (Unbroken plainSpellings) rest := by
  obtain ⟨hword, hunbroken⟩ | ⟨s, hs, hkind, htext⟩ := h
  · exact .inl ⟨hword, hunbroken.plain_table⟩
  · have hmem : s ∈ plainSpellings := mem_plainSpellings.mpr ⟨hs.mem, hkind ▸ hk⟩
    refine .inr ⟨s, ⟨hmem, hs.starts, fun s' hs' => ?_⟩, hkind, htext⟩
    exact hs.longest s' (mem_plainSpellings.mp hs').1

namespace Tokenizes

variable {p : Position} {text : List Char} {ts : List Token}

/-- Signs before a text that is cut already, one token for each of them. -/
theorem ofChars_append {cs : List Char} (hcs : ∀ c ∈ cs, (ofChar c).IsSign c)
    (h : Tokenizes plainSpellings (Unbroken plainSpellings) (cs.foldl Position.step p) text ts) :
    Tokenizes plainSpellings (Unbroken plainSpellings) p (cs ++ text) (Token.ofChars p cs ++ ts) := by
  induction cs generalizing p with
  | nil => exact h
  | cons c cs ih =>
    have hsign := hcs c List.mem_cons_self
    obtain ⟨hword, hend⟩ := plainSpellings_lawful.isSign _ (hsign.isLongest []).mem
    let t : Token := ⟨.ofChar c, c.toString, p⟩
    have htext : t.text.toList = [c] := by simp [t]
    have hstop : t.stop = p.step c := by simp [Token.stop, Position.advance, t]
    have hrest := ih (fun c' hc' => hcs c' (List.mem_cons_of_mem _ hc')) h
    rw [← hstop] at hrest
    -- A character that is a sign by itself is the longest spelling there, whatever follows.
    have hcut : t.IsCut plainSpellings (Unbroken plainSpellings) (cs ++ text) :=
      .inr ⟨⟨[c], .ofChar c⟩, by rw [htext]; exact hsign.isLongest _, rfl, htext⟩
    have hfirst := hrest.cons (t := t) hend (by simp [t]) hcut fun _ _ hw => hword hw.1
    rw [htext, hstop] at hfirst
    exact hfirst

/-- **Splitting comment signs leads from the tokens by all spellings to those without comment signs.** -/
theorem splitComments (h : Tokenizes spellings (Unbroken spellings) p text ts) :
    Tokenizes plainSpellings (Unbroken plainSpellings) p text (splitComments ts) := by
  induction ts generalizing p text with
  | nil =>
    obtain ⟨_, _, heq, -⟩ := h.ended
    exact absurd heq (by simp)
  | cons t ts ih =>
    by_cases hend : t.kind = .endfile
    · obtain ⟨rfl, hts⟩ := h.eq_endfile hend
      rw [hts]
      exact .endfile _ _ p
    have hrest := ih (h.tail hend)
    have hcut := h.cut [] t ts rfl hend
    have htext : text = t.text.toList ++ (Token.joined ts).toList := by
      rw [← h.joined, Token.joined_cons, String.toList_append]
    have hsplit : Story.splitComments (t :: ts) = t.signs ++ Story.splitComments ts := List.flatMap_cons
    rw [htext, hsplit, ← h.start_eq, Token.signs]
    cases hk : t.kind.isComment with
    | true =>
      -- A comment sign is no word, so it is a spelling, and its characters are signs.
      obtain ⟨hword, -⟩ | ⟨s, hs, hkind, hchars⟩ := hcut
      · rw [hword] at hk
        cases hk
      · refine ofChars_append (fun c hc => isSign_ofChar hs.mem (hkind ▸ hk) c (hchars ▸ hc)) ?_
        exact hrest
    | false =>
      refine hrest.cons hend (h.text_ne_empty List.mem_cons_self hend) (hcut.plain hk) fun t' ht' hw => ?_
      -- After a word comes the end of the text or a spelling, with either table.
      rw [Scanner.eq_tokens_of_tokenizes plainSpellings_lawful hrest] at ht'
      exact Scanner.head_tokens_ne_word plainSpellings_lawful (h.isWordEnd hw.1).plain t' ht' hw.2

end Tokenizes

/-- **Splitting comment signs undoes their joining.** The tokens of a text with comment signs split are
those that the table without comment signs gives, kind by kind, text by text and place by place. So they
make up the text, lie one after the other from its start without a gap, and none of them is a comment
sign. -/
theorem splitComments_scan_eq (text : String) :
    let tokens := splitComments (scan text)
    tokens = scanWith plainSpellings text ∧
      Token.joined tokens = text ∧
      (∀ t ∈ tokens.head?, t.start = .zero) ∧
      (tokens.IsChain fun t t' => t.stop = t'.start) ∧
      ∀ t ∈ tokens, t.kind.isComment = false := by
  intro tokens
  have htokens : Tokenizes plainSpellings (Unbroken plainSpellings) .zero text.toList tokens :=
    (Scanner.tokenizes_tokens spellings_lawful text.toList .zero).splitComments
  refine ⟨Scanner.eq_tokens_of_tokenizes plainSpellings_lawful htokens, String.ext htokens.joined, ?_,
    htokens.touching, ?_⟩
  · intro t ht
    obtain ⟨ts, hts⟩ := List.head?_eq_some_iff.mp ht
    rw [hts] at htokens
    exact htokens.start_eq
  · intro t ht
    obtain ⟨before, after, heq⟩ := List.append_of_mem ht
    by_cases hend : t.kind = .endfile
    · rw [hend]
      rfl
    obtain ⟨hword, -⟩ | ⟨s, hs, hkind, -⟩ := htokens.cut before t after heq hend
    · rw [hword]
      rfl
    · rw [hkind]
      exact (mem_plainSpellings.mp hs.mem).2

end Story
