import Mathlib.Data.List.GetD
import Story.Proofs.Chains
import Story.Proofs.CommentSigns
import Story.Proofs.PlainQuotes

/-!
# Numbers put together again

A dot and a sign are tokens of their own, so a number such as `1_0.5e-3` is cut into up to five of them, and a
word such as `5e` is left. The number is put together again by looking ahead.

* `Numeral` — decimal numbers as they may be written, and `Numeral.lexemes`, what they are cut into;
* `CutApart` — lexemes that are cut off one after the other. If a text starts with them, its first tokens are
  these (`Tokenizes.cutApart`), and a numeral is cut like that wherever a word may end after it
  (`Numeral.cutApart`);
* `Grammar.numberLength_numeral` — looking ahead finds all tokens of a numeral and none after it. What comes first
  is found without the exponent (`Grammar.mantissa_eq`), and a sign belongs to the exponent just if the word
  before it has one without digits (`DigitRun.endsWithOpenExponent_word`);
* `Expression.first` — the operand that an expression starts with. No suffix changes it
  (`Grammar.loop_continuation`), so an expression starts with the numeral that it was read from.
-/

namespace Story

open TokenKind

/-! ### Numerals -/

/-- Digits, with gaps after the first of them. -/
structure DigitRun where
  /-- The first digit. -/
  first : Char
  /-- Digits and gaps after it. -/
  more : List Char
  isDigit_first : first.isDigit = true
  isDigitOrGap_more : ∀ c ∈ more, isDigitOrGap c = true

/-- The sign of an exponent. -/
inductive ExponentSign where
  | plus
  | minus

/-- An exponent. -/
structure Exponent where
  /-- The letter that it starts with. -/
  mark : Char
  mark_eq : mark = 'e' ∨ mark = 'E'
  /-- The sign, if there is one. -/
  sign : Option ExponentSign
  /-- The digits. -/
  digits : DigitRun

/-- What a numeral has before its last digits, the exponent apart. -/
inductive Lead where
  /-- Nothing, if there is no dot. -/
  | nothing
  /-- A dot. -/
  | dot
  /-- Digits and a dot. -/
  | pointed (whole : DigitRun)

/-- **A decimal number as it may be written:** `12`, `1.5`, `.5`, each with an exponent or without one. -/
structure Numeral where
  /-- What stands before the last digits. -/
  lead : Lead
  /-- The last digits before the exponent. -/
  digits : DigitRun
  /-- The exponent, if there is one. -/
  exponent : Option Exponent

/-- The characters of the digits. -/
def DigitRun.chars (d : DigitRun) : List Char := d.first :: d.more

/-- The kind of token that the sign is. -/
def ExponentSign.kind : ExponentSign → TokenKind
  | plus => .plus
  | minus => .minus

/-- The character that the sign is. -/
def ExponentSign.char : ExponentSign → Char
  | plus => '+'
  | minus => '-'

/-- The characters of the exponent. -/
def Exponent.chars (e : Exponent) : List Char :=
  e.mark :: ((e.sign.map ExponentSign.char).toList ++ e.digits.chars)

/-- The characters before the last digits. -/
def Lead.chars : Lead → List Char
  | nothing => []
  | dot => ['.']
  | pointed whole => whole.chars ++ ['.']

/-- The numeral as it is written. -/
def Numeral.text (n : Numeral) : String :=
  .ofList (n.lead.chars ++ n.digits.chars ++ n.exponent.elim [] Exponent.chars)

/-! ### What a numeral is cut into -/

/-- The last digits with what is not cut off them: an exponent up to its sign. -/
def DigitRun.word (d : DigitRun) : Option Exponent → List Char
  | none => d.chars
  | some e => d.chars ++ e.mark :: (if e.sign.isSome then [] else e.digits.chars)

/-- What is cut off an exponent: its sign, and the digits after it. -/
def Exponent.cutOff (e : Exponent) : List (TokenKind × List Char) :=
  match e.sign with
  | none => []
  | some sign => [(sign.kind, [sign.char]), (.word, e.digits.chars)]

/-- What is cut off before the last digits. -/
def Lead.lexemes : Lead → List (TokenKind × List Char)
  | nothing => []
  | dot => [(.dot, ['.'])]
  | pointed whole => [(.word, whole.chars), (.dot, ['.'])]

/-- **What a numeral is cut into.** -/
def Numeral.lexemes (n : Numeral) : List (TokenKind × List Char) :=
  n.lead.lexemes ++ (.word, n.digits.word n.exponent) :: n.exponent.elim [] Exponent.cutOff

/-- The lexemes make up the numeral. -/
theorem Numeral.flatMap_lexemes (n : Numeral) : n.lexemes.flatMap Prod.snd = n.text.toList := by
  obtain ⟨lead, digits, exponent⟩ := n
  have hlead : lead.lexemes.flatMap Prod.snd = lead.chars := by cases lead <;> simp [Lead.lexemes, Lead.chars]
  rw [lexemes, List.flatMap_append, hlead, List.flatMap_cons, text, String.toList_ofList, List.append_assoc]
  rcases exponent with _ | ⟨mark, _, _ | sign, e⟩ <;>
    simp [DigitRun.word, Exponent.cutOff, Exponent.chars]

namespace DigitRun

variable (d : DigitRun)

theorem all_chars : ∀ c ∈ d.chars, isDigitOrGap c = true := by
  refine List.forall_mem_cons.mpr ⟨?_, d.isDigitOrGap_more⟩
  rw [isDigitOrGap, d.isDigit_first]
  rfl

theorem areDigits_chars : areDigits d.chars = true := by
  rw [areDigits, List.all_eq_true.mpr d.all_chars]
  rfl

/-- Every character of a word goes with the number. -/
theorem all_word (e : Option Exponent) : ∀ c ∈ d.word e, isDigitOrGap c = true ∨ c = 'e' ∨ c = 'E' := by
  intro c hc
  rcases e with _ | e
  · exact .inl (d.all_chars c hc)
  · obtain hc | hc := List.mem_append.mp hc
    · exact .inl (d.all_chars c hc)
    · obtain rfl | hc := List.mem_cons.mp hc
      · exact .inr e.mark_eq
      · split at hc
        · cases hc
        · exact .inl (e.digits.all_chars c hc)

/-- A word starts with the digits. -/
theorem exists_word_eq (e : Option Exponent) : ∃ chars, d.word e = d.chars ++ chars := by
  cases e with
  | none => exact ⟨[], (List.append_nil _).symm⟩
  | some e => exact ⟨_, rfl⟩

theorem word_ne_nil (e : Option Exponent) : d.word e ≠ [] := by
  cases e <;> exact List.cons_ne_nil _ _

end DigitRun

/-! ### Cutting it -/

/-- The kind and the characters of a token. -/
def Token.lexeme (t : Token) : TokenKind × List Char := (t.kind, t.text.toList)

/-- Lexemes that are cut off one after the other, where `rest` comes after them. -/
def CutApart (rest : List Char) : List (TokenKind × List Char) → Prop
  | [] => True
  | x :: xs => x.2 ≠ [] ∧ lexeme plainSpellings (x.2 ++ (xs.flatMap Prod.snd ++ rest)) = x ∧ CutApart rest xs

namespace Tokenizes

variable {p : Position} {text rest : List Char} {ts : List Token}

/-- What is left after some tokens is cut as it stands. -/
theorem drop {us : List Token} (h : Tokenizes plainSpellings (Unbroken plainSpellings) p text (us ++ ts))
    (hus : ∀ u ∈ us, u.kind ≠ .endfile) :
    ∃ q, Tokenizes plainSpellings (Unbroken plainSpellings) q (Token.joined ts).toList ts := by
  induction us generalizing p text with
  | nil =>
    rw [List.nil_append] at h
    exact ⟨p, by rwa [h.joined]⟩
  | cons u us ih =>
    obtain ⟨hu, hus⟩ := List.forall_mem_cons.mp hus
    exact ih (h.tail hu) hus

/-- What is cut off a text is its first token. -/
theorem exists_cons {x : TokenKind × List Char} (hne : x.2 ≠ [])
    (hx : Story.lexeme plainSpellings (x.2 ++ rest) = x)
    (h : Tokenizes plainSpellings (Unbroken plainSpellings) p (x.2 ++ rest) ts) :
    ∃ t us, ts = t :: us ∧ t.lexeme = x ∧
      Tokenizes plainSpellings (Unbroken plainSpellings) t.stop rest us := by
  let t : Token := ⟨x.1, .ofList x.2, p⟩
  have htext : t.text.toList = x.2 := String.toList_ofList
  have ht : t.text ≠ "" := fun hempty => hne (by rw [← htext, hempty]; rfl)
  have hlexeme : Story.lexeme plainSpellings (t.text.toList ++ rest) = (t.kind, t.text.toList) := by
    rw [htext, hx]
  refine ⟨t, _, ?_, Prod.ext rfl htext, Scanner.tokenizes_tokens plainSpellings_lawful rest t.stop⟩
  -- There is only one way to cut the text, and the scanner cuts off this token first.
  calc
    ts = (⟨some (x.2 ++ rest), p⟩ : Scanner).tokens plainSpellings :=
      Scanner.eq_tokens_of_tokenizes plainSpellings_lawful h
    _ = (⟨some (t.text.toList ++ rest), t.start⟩ : Scanner).tokens plainSpellings := by rw [htext]
    _ = t :: (⟨some rest, t.stop⟩ : Scanner).tokens plainSpellings := Scanner.tokens_append ht hlexeme

/-- **Lexemes that are cut apart are the first tokens of the text.** -/
theorem cutApart {xs : List (TokenKind × List Char)} (hxs : CutApart rest xs)
    (h : Tokenizes plainSpellings (Unbroken plainSpellings) p (xs.flatMap Prod.snd ++ rest) ts) :
    ∃ us vs q, ts = us ++ vs ∧ us.map Token.lexeme = xs ∧
      Tokenizes plainSpellings (Unbroken plainSpellings) q rest vs := by
  induction xs generalizing p ts with
  | nil => exact ⟨[], ts, p, rfl, rfl, h⟩
  | cons x xs ih =>
    obtain ⟨hne, hx, hxs⟩ := hxs
    rw [List.flatMap_cons, List.append_assoc] at h
    obtain ⟨t, ts, rfl, ht, h⟩ := h.exists_cons hne hx
    obtain ⟨us, vs, q, rfl, hus, hvs⟩ := ih hxs h
    exact ⟨t :: us, vs, q, rfl, congrArg₂ List.cons ht hus, hvs⟩

end Tokenizes

/-- A sign is cut off by itself. -/
theorem lexeme_sign {k : TokenKind} {c : Char} (hk : k.IsSign c) (rest : List Char) :
    lexeme plainSpellings ([c] ++ rest) = (k, [c]) := by
  let t : Token := ⟨k, .ofList [c], .zero⟩
  have htext : t.text.toList = [c] := String.toList_ofList
  have hlongest := hk.isLongest rest
  have hcut : t.IsCut plainSpellings (Unbroken plainSpellings) rest :=
    .inr ⟨⟨[c], k⟩, by rwa [htext], rfl, htext⟩
  have hword : t.kind ≠ .word := (plainSpellings_lawful.isSign _ hlongest.mem).1
  have hlexeme := lexeme_eq plainSpellings_lawful (by simp [t]) hcut fun h => absurd h hword
  rwa [htext] at hlexeme

theorem isWordEnd_sign {k : TokenKind} {c : Char} (hk : k.IsSign c) (rest : List Char) :
    IsWordEnd plainSpellings (c :: rest) :=
  .inr (isSome_longestSpelling (hk.isLongest rest).mem (hk.isLongest rest).starts)

/-- No spelling has a character that goes with a number. -/
theorem unbroken_of_number {w : List Char} (hw : ∀ c ∈ w, isDigitOrGap c = true ∨ c = 'e' ∨ c = 'E')
    (rest : List Char) : Unbroken plainSpellings w rest := by
  have hapart : (spellings.all fun s => s.text.all fun c => !(isDigitOrGap c || c == 'e' || c == 'E')) = true := by
    decide
  rintro before inside rfl hne s hs hstarts
  have hmem := (mem_plainSpellings.mp hs).1
  obtain ⟨c, inside, rfl⟩ := List.exists_cons_of_ne_nil hne
  obtain ⟨d, text, htext⟩ := List.exists_cons_of_ne_nil (spellings_lawful.nonempty s hmem)
  -- The spelling would start with a character of the word.
  rw [htext, List.cons_append, List.cons_prefix_cons] at hstarts
  obtain ⟨rfl, -⟩ := hstarts
  have hchar := List.all_eq_true.mp (List.all_eq_true.mp hapart s hmem) d (htext ▸ List.mem_cons_self)
  exact absurd (hw d (by simp)) (by simpa [and_assoc] using hchar)

/-- Where a word may end, digits are cut off as a word. -/
theorem lexeme_number {w rest : List Char} (hw : ∀ c ∈ w, isDigitOrGap c = true ∨ c = 'e' ∨ c = 'E')
    (hne : w ≠ []) (hrest : IsWordEnd plainSpellings rest) : lexeme plainSpellings (w ++ rest) = (.word, w) := by
  have hunbroken := unbroken_of_number hw rest
  obtain ⟨c, w, rfl⟩ := List.exists_cons_of_ne_nil hne
  rw [List.cons_append, lexeme_of_ne_nil _ (List.cons_ne_nil _ _), (unbroken_cons.mp hunbroken).1]
  exact congrArg (Prod.mk _) (wordAt_append hunbroken hrest)

/-- **A numeral is cut into its lexemes wherever a word may end after it.** -/
theorem Numeral.cutApart (n : Numeral) {rest : List Char} (hrest : IsWordEnd plainSpellings rest) :
    CutApart rest n.lexemes := by
  have hdot : TokenKind.dot.IsSign '.' := by decide
  have hsign (sign : ExponentSign) : sign.kind.IsSign sign.char := by cases sign <;> decide
  have hdigits (d : DigitRun) {rest : List Char} (hrest : IsWordEnd plainSpellings rest) :
      lexeme plainSpellings (d.chars ++ rest) = (.word, d.chars) :=
    lexeme_number (fun c hc => .inl (d.all_chars c hc)) (List.cons_ne_nil _ _) hrest
  obtain ⟨lead, digits, exponent⟩ := n
  -- The exponent first: after the last word comes a sign, or what comes after the numeral.
  have hlast : CutApart rest ((.word, digits.word exponent) :: exponent.elim [] Exponent.cutOff) := by
    have hword {after : List Char} (hafter : IsWordEnd plainSpellings after) :
        lexeme plainSpellings (digits.word exponent ++ after) = (.word, digits.word exponent) :=
      lexeme_number (digits.all_word exponent) (digits.word_ne_nil exponent) hafter
    have hne := digits.word_ne_nil exponent
    rcases exponent with _ | ⟨mark, hmark, _ | sign, e⟩
    · exact ⟨hne, hword hrest, trivial⟩
    · exact ⟨hne, hword hrest, trivial⟩
    · exact ⟨hne, hword (isWordEnd_sign (hsign sign) _), List.cons_ne_nil _ _,
        lexeme_sign (hsign sign) _, List.cons_ne_nil _ _, hdigits e hrest, trivial⟩
  cases lead with
  | nothing => exact hlast
  | dot => exact ⟨List.cons_ne_nil _ _, lexeme_sign hdot _, hlast⟩
  | pointed whole =>
    exact ⟨List.cons_ne_nil _ _, hdigits whole (isWordEnd_sign hdot _), List.cons_ne_nil _ _,
      lexeme_sign hdot _, hlast⟩

/-! ### Looking ahead -/

theorem Exponent.isDigitOrGap_mark (e : Exponent) : isDigitOrGap e.mark = false := by
  obtain h | h := e.mark_eq <;> rw [h] <;> decide

/-- A word whose last character is the mark of an exponent, with digits before it. -/
theorem endsWithOpenExponent_iff {word : String} :
    endsWithOpenExponent word = true ↔ ∃ front mark, word.toList = front ++ [mark] ∧ (mark = 'e' ∨ mark = 'E') ∧
      ∀ c ∈ front, isDigitOrGap c = true := by
  unfold endsWithOpenExponent
  -- Only the last character of the word is looked at, and then what is before it.
  obtain hnil | ⟨front, last, hword⟩ := List.eq_nil_or_concat' word.toList
  · simp [hnil]
  · constructor
    · intro h
      rw [hword, List.reverse_concat] at h
      simp only [Bool.and_eq_true, Bool.or_eq_true, beq_iff_eq, List.all_reverse, List.all_eq_true] at h
      exact ⟨front, last, hword, h⟩
    · rintro ⟨front, mark, hword, h⟩
      rw [hword, List.reverse_concat]
      simpa using h

namespace DigitRun

variable (d : DigitRun) {e : Option Exponent} {word : String}

/-- A word is digits only if there is no exponent. -/
theorem isDigits_word (hword : word.toList = d.word e) : isDigits word = e.isNone := by
  rw [isDigits, hword]
  cases e with
  | none => exact d.areDigits_chars
  | some e =>
    have hmark := e.isDigitOrGap_mark
    simp [DigitRun.word, areDigits, hmark]

/-- **A word has an open exponent just if the exponent has a sign,** which has been cut off. -/
theorem endsWithOpenExponent_word (hword : word.toList = d.word e) :
    endsWithOpenExponent word = true ↔ ∃ x ∈ e, x.sign.isSome = true := by
  rw [endsWithOpenExponent_iff, hword]
  constructor
  · rintro ⟨front, mark, hfront, hmark, -⟩
    have hlast : (d.word e).getLast? = some mark := by rw [hfront, List.getLast?_concat]
    have hclosed {digits : DigitRun} : digits.chars.getLast? ≠ some mark := by
      intro hlast
      have hdigit := digits.all_chars mark (List.mem_of_getLast? hlast)
      obtain rfl | rfl := hmark <;> revert hdigit <;> decide
    rcases e with _ | ⟨_, _, _ | sign, digits⟩
    · exact absurd hlast hclosed
    · -- Without a sign the digits of the exponent are the end of the word.
      rw [DigitRun.word, List.getLast?_append_of_ne_nil _ (List.cons_ne_nil _ _)] at hlast
      exact absurd hlast hclosed
    · exact ⟨_, rfl, rfl⟩
  · rintro ⟨⟨mark, hmark, sign, digits⟩, rfl, hsign⟩
    exact ⟨d.chars, mark, by rw [DigitRun.word, if_pos hsign], hmark, d.all_chars⟩

/-- A word can stand after a dot. -/
theorem isFraction_word (hword : word.toList = d.word e) : isFraction word = true := by
  have hfirst : isDigitOrGap d.first = true := d.all_chars d.first List.mem_cons_self
  unfold isFraction
  rw [hword]
  dsimp only
  -- Without an exponent the word is all digits; with one, the digits end at its mark.
  cases e with
  | none =>
    have hall : d.chars.dropWhile isDigitOrGap = [] := List.dropWhile_eq_nil_iff.mpr d.all_chars
    rw [DigitRun.word, hall]
    rfl
  | some e =>
    have hdrop (after : List Char) :
        (d.chars ++ e.mark :: after).dropWhile isDigitOrGap = e.mark :: after := by
      rw [List.dropWhile_append_of_pos d.all_chars, List.dropWhile_cons_of_neg (by simp [e.isDigitOrGap_mark])]
    have hmark : (e.mark == 'e' || e.mark == 'E') = true := by simpa using e.mark_eq
    have hdigits := e.digits.areDigits_chars
    have hhead (after : List Char) : (d.chars ++ after).head? = some d.first := rfl
    rw [DigitRun.word, hdrop, hhead]
    cases e.sign <;> simp [hfirst, hmark, hdigits]

end DigitRun

theorem Token.toList_joined (ts : List Token) : (joined ts).toList = (ts.map lexeme).flatMap Prod.snd := by
  induction ts with
  | nil => rfl
  | cons t ts ih => rw [joined_cons, String.toList_append, ih, List.map_cons, List.flatMap_cons, lexeme]

theorem State.lexeme_peek (s : State) (k : Nat) :
    (s.peek k).lexeme = (s.rest.map Token.lexeme).getD k (.endfile, []) := (List.getD_map ..).symm

namespace Grammar

open Story.Parser

variable {s : State} {lead : Lead} {word : List Char} {after : List (TokenKind × List Char)}

/-- What is ahead from the last digits on. -/
theorem lexeme_peek_lead (h : s.rest.map Token.lexeme = lead.lexemes ++ after) (k : Nat) :
    (s.peek (lead.lexemes.length + k)).lexeme = after.getD k (.endfile, []) := by
  rw [State.lexeme_peek, h, List.getD_append_right _ _ _ _ (Nat.le_add_right ..), Nat.add_sub_cancel_left]

/-- **Before the exponent,** all lexemes of the numeral are found up to the word with its last digits. -/
theorem mantissa_eq {d : DigitRun} {e : Option Exponent}
    (h : s.rest.map Token.lexeme = lead.lexemes ++ (.word, d.word e) :: after)
    (hafter : ∀ x ∈ after.head?, x.1 ≠ .dot) :
    mantissa s = (lead.lexemes.length + 1, s.peek lead.lexemes.length) := by
  have hcurrent : s.current.lexeme = (s.rest.map Token.lexeme).getD 0 (.endfile, []) := by
    rw [← State.peek_zero, State.lexeme_peek]
  have hahead := lexeme_peek_lead h
  unfold mantissa
  cases lead with
  | nothing =>
    have hword : s.kind = .word := by
      rw [h] at hcurrent
      exact congrArg Prod.fst hcurrent
    -- If the word is all digits, no fraction follows, since there is no dot.
    have hdot : (s.peek 1).kind ≠ .dot := by
      have hpeek : (s.peek 1).kind = (after.getD 0 (.endfile, [])).1 := congrArg Prod.fst (hahead 1)
      rw [hpeek]
      cases after with
      | nil => exact TokenKind.noConfusion
      | cons x xs => exact hafter x rfl
    rw [if_neg (by simp [hword]), if_neg (by simp [hdot])]
    exact congrArg (Prod.mk 1) s.peek_zero.symm
  | dot =>
    have hdot : s.kind = .dot := by
      rw [h] at hcurrent
      exact congrArg Prod.fst hcurrent
    exact if_pos hdot
  | pointed whole =>
    rw [h] at hcurrent
    obtain ⟨hkind, htext⟩ : s.current.kind = .word ∧ s.current.text.toList = whole.word none :=
      Prod.mk.inj hcurrent
    have hkind : s.kind = .word := hkind
    have hdot : (s.peek 1).kind = .dot := by
      have hpeek := s.lexeme_peek 1
      rw [h] at hpeek
      exact congrArg Prod.fst hpeek
    obtain ⟨hword, hfraction⟩ : (s.peek 2).kind = .word ∧ (s.peek 2).text.toList = d.word e :=
      Prod.mk.inj (hahead 0)
    rw [if_neg (by simp [hkind]), if_pos]
    · rfl
    · rw [whole.isDigits_word htext, hdot, hword, d.isFraction_word hfraction]
      rfl

/-- **All tokens of a numeral are found,** and none after it. -/
theorem numberLength_numeral {n : Numeral} (h : s.rest.map Token.lexeme = n.lexemes ++ after)
    (hafter : ∀ x ∈ after.head?, x.1 ≠ .dot) : numberLength s = n.lexemes.length := by
  obtain ⟨lead, d, e⟩ := n
  rw [Numeral.lexemes, List.append_assoc] at h
  have hcut : ∀ x ∈ (e.elim [] Exponent.cutOff ++ after).head?, x.1 ≠ .dot := by
    rcases e with _ | ⟨_, _, _ | sign, _⟩
    · exact hafter
    · exact hafter
    · rintro x ⟨⟩
      cases sign <;> exact TokenKind.noConfusion
  have hahead := lexeme_peek_lead h
  have hlast : (s.peek lead.lexemes.length).text.toList = d.word e := congrArg Prod.snd (hahead 0)
  have hopen := d.endsWithOpenExponent_word hlast
  unfold numberLength
  rw [mantissa_eq h hcut, Numeral.lexemes, List.length_append]
  dsimp only
  by_cases hsigned : ∃ x ∈ e, x.sign.isSome = true
  · -- The sign and the digits after it come next.
    have hmark := hopen.mpr hsigned
    obtain ⟨⟨mark, _, sign, digits⟩, rfl, hsome⟩ := hsigned
    obtain ⟨sign, rfl⟩ := Option.isSome_iff_exists.mp hsome
    have hsign : (s.peek (lead.lexemes.length + 1)).kind = sign.kind := congrArg Prod.fst (hahead 1)
    obtain ⟨hword, hdigits⟩ : (s.peek (lead.lexemes.length + 2)).kind = .word ∧
        (s.peek (lead.lexemes.length + 2)).text.toList = digits.word none := Prod.mk.inj (hahead 2)
    rw [if_pos]
    · rfl
    · rw [hmark, hsign, hword, digits.isDigits_word hdigits]
      cases sign <;> rfl
  · have hnothing : e.elim [] Exponent.cutOff = [] := by
      rcases e with _ | ⟨_, _, _ | sign, _⟩
      · rfl
      · rfl
      · exact absurd ⟨_, rfl, rfl⟩ hsigned
    rw [if_neg (by simp [mt hopen.mp hsigned]), hnothing]
    rfl

/-! ### Reading a numeral -/

variable {g : Nested} (multiline : Bool)

/-- A word that starts with a digit is no operator, but a number. -/
theorem prefixed_of_startsNumber (hkind : s.kind = .word) (hdigit : startsNumber s.current.text = true) :
    prefixed g multiline s = number s := by
  have hcurrent : s.current.kind = .word := hkind
  have hwords : ∀ word ∈ "void" :: operandWords, startsNumber word = false := by decide
  -- Words that operate do not start with a digit.
  have hother : ∀ word ∈ "void" :: operandWords, s.current.text ≠ word := by
    rintro word hword rfl
    rw [hwords _ hword] at hdigit
    cases hdigit
  have hupdate : atUpdate s = false := by simp [atUpdate, hkind]
  have hunary : unaryOperator? s.current = none := by
    simp [unaryOperator?, hcurrent, hother "void" List.mem_cons_self]
  rw [prefixed_eq_plainOperand hupdate hunary fun word hword => by
    simp [Token.isWord, hother word (List.mem_cons_of_mem _ hword)]]
  unfold plainOperand
  rw [state_bind_run, hkind]
  dsimp only
  unfold wordOperand
  rw [state_bind_run, if_pos hdigit]

/-- A dot before a fraction starts a number. -/
theorem prefixed_of_dot (hkind : s.kind = .dot) (hword : (s.peek 1).kind = .word)
    (hfraction : isFraction (s.peek 1).text = true) : prefixed g multiline s = number s := by
  have hcurrent : s.current.kind = .dot := hkind
  have hupdate : atUpdate s = false := by simp [atUpdate, hkind]
  have hunary : unaryOperator? s.current = none := by simp [unaryOperator?, hcurrent]
  rw [prefixed_eq_plainOperand hupdate hunary fun word _ => by simp [Token.isWord, hcurrent]]
  unfold plainOperand
  rw [state_bind_run, hkind]
  dsimp only
  rw [hword, hfraction]
  rfl

/-- The first token of a numeral starts a number. -/
theorem prefixed_numeral {n : Numeral} (h : s.rest.map Token.lexeme = n.lexemes ++ after) :
    prefixed g multiline s = number s := by
  have hpeek (k : Nat) : (s.peek k).lexeme = (n.lexemes ++ after).getD k (.endfile, []) := by
    rw [State.lexeme_peek, h]
  have hstarts {d : DigitRun} {chars : List Char} (htext : s.current.text.toList = d.chars ++ chars) :
      startsNumber s.current.text = true := by
    rw [startsNumber, htext]
    exact d.isDigit_first
  obtain ⟨lead, d, e⟩ := n
  have hfirst := hpeek 0
  rw [State.peek_zero] at hfirst
  -- By what leads the digits: nothing, a dot, or a whole part and a dot.
  cases lead with
  | nothing =>
    obtain ⟨hkind, htext⟩ : s.current.kind = .word ∧ s.current.text.toList = d.word e := Prod.mk.inj hfirst
    obtain ⟨chars, hword⟩ := d.exists_word_eq e
    exact prefixed_of_startsNumber multiline hkind (hstarts (htext.trans hword))
  | dot =>
    have hkind : s.kind = .dot := congrArg Prod.fst hfirst
    obtain ⟨hword, htext⟩ : (s.peek 1).kind = .word ∧ (s.peek 1).text.toList = d.word e :=
      Prod.mk.inj (hpeek 1)
    exact prefixed_of_dot multiline hkind hword (d.isFraction_word htext)
  | pointed whole =>
    obtain ⟨hkind, htext⟩ : s.current.kind = .word ∧ s.current.text.toList = whole.chars := Prod.mk.inj hfirst
    exact prefixed_of_startsNumber multiline hkind (hstarts (htext.trans (List.append_nil _).symm))

/-- **A numeral is read as one number,** and nothing after it is. -/
theorem operand_numeral {n : Numeral} {us vs : List Token} (hs : s.Placed) (hrest : s.rest = us ++ vs)
    (hus : us.map Token.lexeme = n.lexemes) (hvs : ∀ v ∈ vs.head?, v.kind ≠ .dot) :
    prefixed g multiline s =
      (some (.number ⟨s.position, s.position.advance n.text⟩ n.text),
        { s with rest := vs, cursor := s.cursor + us.length }) := by
  have hlexemes : s.rest.map Token.lexeme = n.lexemes ++ vs.map Token.lexeme := by
    rw [hrest, List.map_append, hus]
  have hafter : ∀ x ∈ (vs.map Token.lexeme).head?, x.1 ≠ .dot := by
    rw [List.head?_map]
    intro x hx
    obtain ⟨v, hv, rfl⟩ := Option.mem_map.mp hx
    exact hvs v hv
  have hlength : numberLength s = us.length := by
    rw [numberLength_numeral hlexemes hafter, ← hus, List.length_map]
  have htext : Token.joined us = n.text := by
    apply String.ext
    rw [Token.toList_joined, hus, n.flatMap_lexemes]
  have hrun : number s = (some (.number ⟨s.position, (s.advanceBy (numberLength s)).position⟩
      (Token.joined (s.rest.take (numberLength s)))), s.advanceBy (numberLength s)) := rfl
  rw [prefixed_numeral multiline hlexemes, hrun, hlength, hs.position_advanceBy hrest,
    State.advanceBy_of_rest hrest, hrest, List.take_left, htext]

end Grammar

/-! ### The first operand -/

/-- **The operand that an expression starts with:** what is left without all that was put on it. -/
def Expression.first : Expression → Expression
  | .binary _ before _ _ | .member _ before _ _ | .index _ before _ _ | .call _ before _ _ _
  | .update _ _ false before | .conditional _ before _ _ => before.first
  | e => e

theorem Suffix.first_attach (w : Suffix) (span : Span) (e : Expression) : (w.attach span e).first = e.first := by
  cases w <;> rw [Suffix.attach, Expression.first]

namespace Grammar

open Story.Parser

variable {s : State} (g : Nested) (multiline binary : Bool)

/-- **Whatever is put on an expression, it starts with the same operand.** -/
theorem loop_continuation (start : Position) (e : Expression) :
    ∃ e' t, loop (continuation g multiline binary start) e s = (some e', t) ∧ e'.first = e.first := by
  -- One round puts a suffix on, or it is the last; the loop has no other rounds.
  have hround (e : Expression) (s : State) :
      continuation g multiline binary start e s = (some (.done e), s) ∨
        ∃ e' t, continuation g multiline binary start e s = (some (.again e'), t) ∧ e'.first = e.first := by
    rcases hw : suffix g multiline binary s with ⟨_ | w, t⟩
    · exact .inl (continuation_of_none start e (congrArg Prod.fst hw))
    · obtain ⟨reports, hrun⟩ := continuation_of_some start e hw
      exact .inr ⟨_, _, hrun, w.first_attach _ e⟩
  have hloop := loop_iterates (continuation_advances g multiline binary start) e s
  generalize loop (continuation g multiline binary start) e s = outcome at hloop ⊢
  induction hloop with
  | @failed e s s' hfail =>
    obtain hdone | ⟨_, _, hagain, -⟩ := hround e s
    · cases hdone.symm.trans hfail
    · cases hagain.symm.trans hfail
  | @done e s s' result hlast =>
    obtain hdone | ⟨_, _, hagain, -⟩ := hround e s
    · cases hdone.symm.trans hlast
      exact ⟨e, s, rfl, rfl⟩
    · cases hagain.symm.trans hlast
  | @again e next s s' outcome hnext _ ih =>
    obtain hdone | ⟨_, _, hagain, hfirst⟩ := hround e s
    · cases hdone.symm.trans hnext
    · cases hagain.symm.trans hnext
      obtain ⟨e', t, rfl, hfirst'⟩ := ih
      exact ⟨e', t, rfl, hfirst'.trans hfirst⟩

/-- An expression whose operand has been read starts with it, unless it is nested too deep. -/
theorem outermost_first {first : Expression} (passed : State) (hdepth : s.depth < nestingLimit)
    (h : prefixed outermost multiline { s with depth := s.depth + 1 } =
      (some first, { passed with depth := s.depth + 1 })) (hpassed : passed.depth = s.depth) :
    ∃ e t, outermost.expression multiline binary s = (some e, t) ∧ e.first = first.first ∧ passed.Extends t := by
  obtain ⟨e, t, hloop, hfirst⟩ := loop_continuation (s := { passed with depth := s.depth + 1 }) outermost multiline
    binary s.position first
  have hexpression : expression outermost multiline binary { s with depth := s.depth + 1 } = (some e, t) :=
    bind_eq_some.mpr ⟨s.position, _, rfl, bind_eq_some.mpr ⟨first, _, h, hloop⟩⟩
  refine ⟨e, { t with depth := s.depth }, ?_, hfirst, ?_⟩
  · exact (outermost_expression_eq_some hdepth).mpr ⟨t, hexpression, rfl⟩
  · have hextends := extends_of_eq (p := repeated (continuation outermost multiline binary s.position) first) hloop
    exact { hextends with depth := hpassed.symm }

/-- Beyond the last level there is only a placeholder. -/
theorem outermost_too_deep (hdepth : ¬s.depth < nestingLimit) :
    ∃ span t, outermost.expression multiline binary s = (some (.missing span), t) := by
  have hguarded : ∃ span t, guarded (expression outermost multiline binary) (refused.expression multiline binary) s =
      (some (.missing span), t) := by
    rw [guarded, state_bind_run, if_neg hdepth]
    split <;> exact ⟨_, _, rfl⟩
  obtain ⟨span, t, hrun⟩ := hguarded
  rw [outermost_eq]
  exact ⟨span, t, rewind_eq_some.mpr hrun⟩

end Grammar

/-! ### The tokens of a numeral in a story -/

/-- **What may come after a numeral:** nothing, or a sign other than a dot. -/
def EndsNumeral (after : String) : Prop :=
  IsWordEnd spellings after.toList ∧ after.toList.head? ≠ some '.'

/-- What is left of a story is cut as it stands. -/
theorem State.Inside.tokenizes {source : String} {indentSize d : Nat} {s : State}
    (hs : (ofText source indentSize).Inside d s) :
    ∃ p, Tokenizes plainSpellings (Unbroken plainSpellings) p (Token.joined s.rest).toList
      (s.rest ++ [.endfile s.finish]) := by
  -- All tokens of the story, with the end of the file; those that have been read are dropped below.
  have hall : Tokenizes plainSpellings (Unbroken plainSpellings) .zero source.toList
      ((ofText source indentSize).rest ++ [.endfile s.finish]) := by
    rw [hs.finish, ← (ofText_spec source indentSize).1]
    exact (Scanner.tokenizes_tokens spellings_lawful source.toList .zero).splitComments
  obtain ⟨before, hbefore⟩ := hs.rest
  have hkinds : ∀ t ∈ before, t.kind ≠ .endfile := fun t ht =>
    (isOf_ofText (hbefore ▸ List.mem_append_left _ ht)).kind_ne_endfile
  rw [← hbefore, List.append_assoc] at hall
  obtain ⟨p, hp⟩ := hall.drop hkinds
  refine ⟨p, ?_⟩
  rwa [Token.joined_append, Token.joined_cons, Token.joined_nil, Token.endfile, String.append_empty,
    String.append_empty] at hp

/-- **A numeral in a story is read from its own tokens.** -/
theorem Numeral.exists_tokens (n : Numeral) {source after : String} {indentSize d : Nat} {s : State}
    (hs : (State.ofText source indentSize).Inside d s) (htext : Token.joined s.rest = n.text ++ after)
    (hafter : EndsNumeral after) :
    ∃ us vs, s.rest = us ++ vs ∧ us.map Token.lexeme = n.lexemes ∧ Token.joined vs = after ∧
      ∀ v ∈ vs.head?, v.kind ≠ .dot := by
  obtain ⟨p, hp⟩ := hs.tokenizes
  rw [htext, String.toList_append, ← n.flatMap_lexemes] at hp
  obtain ⟨us, ws, q, hall, hus, hws⟩ := hp.cutApart (n.cutApart hafter.1.plain)
  -- The end of the file is the last token after the numeral.
  obtain ⟨vs, last, rfl, hlast, hempty, -⟩ := hws.ended
  rw [← List.append_assoc] at hall
  obtain ⟨hrest, -⟩ := List.append_inj' hall rfl
  have hjoined : Token.joined vs = after := by
    apply String.ext
    rw [← hws.joined, Token.joined_append, Token.joined_cons, Token.joined_nil, hempty, String.append_empty,
      String.append_empty]
  refine ⟨us, vs, hrest, hus, hjoined, fun v hv hdot => ?_⟩
  obtain ⟨vs, rfl⟩ := List.head?_eq_some_iff.mp hv
  have hspelled : ∀ x ∈ spellings, x.kind = .dot → x.text = ['.'] := by decide
  obtain ⟨hword, -⟩ | ⟨x, hx, hkind, hchars⟩ := hws.cut [] v _ rfl (by rw [hdot]; exact TokenKind.noConfusion)
  · cases hdot.symm.trans hword
  · -- A token that is a dot is spelled as one.
    have hchars : v.text.toList = ['.'] :=
      hchars.trans (hspelled x (mem_plainSpellings.mp hx.mem).1 (hkind.symm.trans hdot))
    refine hafter.2 ?_
    rw [← hjoined, Token.joined_cons, String.toList_append, hchars]
    rfl

namespace Grammar

/-- **A numeral is put together again.** Wherever a numeral stands in a story, with nothing or a sign other
than a dot after it, its tokens and no others are read as an operand, and this is a number with the text of
the numeral. So an expression that is read from there starts with that number and goes on after it; only if it
is nested too deep it does not. -/
theorem numeral_rejoined (n : Numeral) {source after : String} {indentSize d : Nat} {s : State}
    (hs : (State.ofText source indentSize).Inside d s) (htext : Token.joined s.rest = n.text ++ after)
    (hafter : EndsNumeral after) (multiline binary : Bool) :
    ∃ us vs, s.rest = us ++ vs ∧ Token.joined us = n.text ∧ Token.joined vs = after ∧
      let number : Expression := .number ⟨s.position, s.position.advance n.text⟩ n.text
      let passed : State := { s with rest := vs, cursor := s.cursor + us.length }
      (∀ g, prefixed g multiline s = (some number, passed)) ∧
      ∃ e t, outermost.expression multiline binary s = (some e, t) ∧
        (e.first = number ↔ s.depth < nestingLimit) ∧ (s.depth < nestingLimit → passed.Extends t) := by
  obtain ⟨us, vs, hrest, hus, hjoined, hvs⟩ := n.exists_tokens hs htext hafter
  have hnumeral : Token.joined us = n.text := by
    apply String.ext
    rw [Token.toList_joined, hus, n.flatMap_lexemes]
  refine ⟨us, vs, hrest, hnumeral, hjoined, ?_⟩
  intro number passed
  refine ⟨fun g => operand_numeral multiline hs.placed hrest hus hvs, ?_⟩
  by_cases hdepth : s.depth < nestingLimit
  · have hoperand := operand_numeral (g := outermost) multiline hs.deeper.placed hrest hus hvs
    obtain ⟨e, t, he, hfirst, hextends⟩ :=
      outermost_first multiline binary passed hdepth hoperand rfl
    exact ⟨e, t, he, iff_of_true hfirst hdepth, fun _ => hextends⟩
  · obtain ⟨span, t, he⟩ := outermost_too_deep multiline binary hdepth
    exact ⟨_, t, he, iff_of_false nofun hdepth, fun h => absurd h hdepth⟩

/-- A sign that belongs to an exponent, and right after the number one that is an operator. -/
theorem numeral_rejoined_sum :
    let n : Numeral := ⟨.pointed ⟨'1', ['_', '0'], rfl, List.all_eq_true.mp rfl⟩, ⟨'5', [], rfl, by simp⟩,
      some ⟨'e', .inl rfl, some .minus, ⟨'3', [], rfl, by simp⟩⟩⟩
    let s := (State.ofText "[1_0.5e-3-2]" 4).advance
    n.text = "1_0.5e-3" ∧ Token.joined s.rest = n.text ++ "-2]" ∧ EndsNumeral "-2]" ∧ s.depth < nestingLimit ∧
      ∃ us vs, s.rest = us ++ vs ∧ Token.joined us = n.text ∧ Token.joined vs = "-2]" ∧
        ∃ e t, outermost.expression false true s = (some e, t) ∧
          e.first = .number ⟨s.position, s.position.advance n.text⟩ n.text := by
  intro n s
  have hs : (State.ofText "[1_0.5e-3-2]" 4).Inside 0 s := (State.Inside.self _).extended (State.extends_advance _)
  have htext : Token.joined s.rest = n.text ++ "-2]" := by decide +kernel
  have hafter : EndsNumeral "-2]" := ⟨.inr (by decide), by decide⟩
  have hdepth : s.depth < nestingLimit := by decide +kernel
  obtain ⟨us, vs, hrest, hus, hvs, -, e, t, he, hfirst, -⟩ := numeral_rejoined n hs htext hafter false true
  exact ⟨by decide, htext, hafter, hdepth, us, vs, hrest, hus, hvs, e, t, he, hfirst.mpr hdepth⟩

end Grammar

end Story
