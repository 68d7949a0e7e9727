import Mathlib.Data.List.Chain
import Story.Script.Literal

/-!
# Reading template literals

What stands between back-ticks in the generated script is read again when the script runs. This file
says how it is read, and what becomes of words that were written with `escapeTextChars`.

* `readTemplate` — reads up to the back-tick that ends the literal. An escaped backslash, back-tick or
  dollar sign stands for itself, a carriage return is read as a line feed, and a dollar sign before a
  brace starts a substitution;
* `CodeReader` — where the code of a substitution ends is up to the language of the code, which is a
  parameter: any reader will do that finds the end of the codes that were written
  (`CodeReader.Finds`);
* `readTemplate_escapeTextChars` — words come back as they were, unless they end in a dollar sign and a
  brace follows;
* `readTemplate_stretches_iff` — so a literal that is put together from words and codes is read as
  what it was put together from if and only if no such words meet.
-/

namespace Story

/-! ### The rules -/

/-- A reader of the code of a substitution. It takes the text after the opening brace apart at the
closing brace. -/
structure CodeReader where
  /-- The code and what comes after the closing brace. -/
  read : List Char → Option (List Char × List Char)
  cut : ∀ {cs code rest}, read cs = some (code, rest) → cs = code ++ '\x7d' :: rest

/-- The reader finds the end of the code, whatever comes after it. -/
def CodeReader.Finds (r : CodeReader) (code : List Char) : Prop :=
  ∀ rest, r.read (code ++ '\x7d' :: rest) = some (code, rest)

/-- The code up to the first closing brace. This is where code without braces ends. -/
def CodeReader.upToBrace : CodeReader where
  read cs :=
    match cs.dropWhile (· != '\x7d') with
    | [] => none
    | _ :: rest => some (cs.takeWhile (· != '\x7d'), rest)
  cut := by
    intro cs code rest h
    split at h
    · cases h
    · next c rest' hdrop =>
      cases h
      obtain rfl : c = '\x7d' := by
        have hhead := List.head?_dropWhile_not (· != '\x7d') cs
        rw [hdrop] at hhead
        simpa using hhead
      rw [← hdrop, List.takeWhile_append_dropWhile]

theorem CodeReader.upToBrace_finds {code : List Char} (h : '\x7d' ∉ code) :
    CodeReader.upToBrace.Finds code := by
  intro rest
  have hne : ∀ c ∈ code, (c != '\x7d') = true := by
    intro c hc
    rw [bne_iff_ne]
    exact fun heq => h (heq ▸ hc)
  simp [upToBrace, List.dropWhile_append_of_pos hne, List.takeWhile_append_of_pos hne]

/-- What a template literal consists of. -/
inductive TemplateItem where
  /-- A character of its text. -/
  | char (c : Char)
  /-- Any other escape sequence, with the character after the backslash. -/
  | escape (c : Char)
  /-- The code of a substitution. -/
  | code (text : List Char)
deriving DecidableEq

namespace TemplateItem

/-- The first item of what is left of a literal, and what comes after it. -/
def next? (r : CodeReader) : List Char → Option (TemplateItem × List Char)
  | [] => none
  | '\\' :: c :: cs => some (if c = '\\' ∨ c = '\x60' ∨ c = '$' then .char c else .escape c, cs)
  | '$' :: '\x7b' :: cs => (r.read cs).map fun (text, rest) => (.code text, rest)
  | '\r' :: '\n' :: cs => some (.char '\n', cs)
  | '\r' :: cs => some (.char '\n', cs)
  | c :: cs => if c = '\\' ∨ c = '\x60' then none else some (.char c, cs)

theorem length_next? {r : CodeReader} {cs rest : List Char} {i : TemplateItem}
    (h : next? r cs = some (i, rest)) : rest.length < cs.length := by
  unfold next? at h
  split at h
  case h_1 => cases h
  case h_3 =>
    -- The code and its closing brace are gone too.
    obtain ⟨⟨text, after⟩, hread, heq⟩ := Option.map_eq_some_iff.mp h
    cases heq
    rw [r.cut hread]
    simp only [List.length_cons, List.length_append]
    omega
  case h_6 =>
    split at h
    · cases h
    · cases h
      exact Nat.lt_succ_self _
  all_goals
    cases h
    simp only [List.length_cons]
    omega

/-- A character that nothing makes special is an item by itself. -/
theorem next?_plain (r : CodeReader) {c : Char} {cs : List Char}
    (hc : c ≠ '\\' ∧ c ≠ '\x60' ∧ c ≠ '\r') (h : ¬(c = '$' ∧ cs.head? = some '\x7b')) :
    next? r (c :: cs) = some (.char c, cs) := by
  unfold next?
  split <;> simp_all

end TemplateItem

open TemplateItem (next?)

/-- Read a template literal after its opening back-tick: its items and what comes after the back-tick
that ends it. -/
def readTemplate (r : CodeReader) (cs : List Char) : Option (List TemplateItem × List Char) :=
  if cs.head? = some '\x60' then some ([], cs.tail)
  else
    match _hnext : next? r cs with
    | none => none
    | some (i, rest) => (readTemplate r rest).map fun (items, after) => (i :: items, after)
termination_by cs.length
decreasing_by exact TemplateItem.length_next? _hnext

/-! ### Reading item by item -/

section Read

variable {r : CodeReader}

/-- What is read if some items come first. -/
def withItems (items : List TemplateItem) (read : Option (List TemplateItem × List Char)) :
    Option (List TemplateItem × List Char) :=
  read.map fun (items', rest) => (items ++ items', rest)

theorem withItems_eq_some {items items' : List TemplateItem} {rest : List Char}
    {read : Option (List TemplateItem × List Char)} :
    withItems items read = some (items ++ items', rest) ↔ read = some (items', rest) := by
  cases read <;> simp [withItems, Prod.ext_iff]

theorem withItems_cons (i : TemplateItem) (items : List TemplateItem)
    (read : Option (List TemplateItem × List Char)) :
    withItems (i :: items) read = withItems [i] (withItems items read) := by
  cases read <;> rfl

@[simp] theorem withItems_nil (read : Option (List TemplateItem × List Char)) :
    withItems [] read = read := by
  cases read <;> rfl

theorem readTemplate_closed (rest : List Char) : readTemplate r ('\x60' :: rest) = some ([], rest) := by
  rw [readTemplate]
  rfl

/-- A literal that does not end here has a first item and is read on after it. -/
theorem readTemplate_open {cs : List Char} (h : cs.head? ≠ some '\x60') :
    readTemplate r cs = (next? r cs).bind fun (i, rest) => withItems [i] (readTemplate r rest) := by
  rw [readTemplate, if_neg h]
  split
  · next hnone => rw [hnone]; rfl
  · next hsome => rw [hsome]; rfl

theorem readTemplate_of_next {cs rest : List Char} {i : TemplateItem}
    (h : next? r cs = some (i, rest)) : readTemplate r cs = withItems [i] (readTemplate r rest) := by
  have hopen : cs.head? ≠ some '\x60' := by
    intro hc
    obtain ⟨cs, rfl⟩ := List.head?_eq_some_iff.mp hc
    simp [next?] at h
  rw [readTemplate_open hopen, h]
  rfl

theorem readTemplate_code {code : List Char} (h : r.Finds code) (rest : List Char) :
    readTemplate r ('$' :: '\x7b' :: (code ++ '\x7d' :: rest)) =
      withItems [.code code] (readTemplate r rest) := by
  refine readTemplate_of_next ?_
  simp only [next?, h rest, Option.map_some]

/-- Blanks are read as they are. -/
theorem readTemplate_blanks (n : Nat) (after : List Char) :
    readTemplate r (List.replicate n ' ' ++ after) =
      withItems (List.replicate n (.char ' ')) (readTemplate r after) := by
  induction n with
  | zero => exact (withItems_nil _).symm
  | succ n ih =>
    rw [List.replicate_succ, List.replicate_succ, withItems_cons, ← ih]
    exact readTemplate_of_next (TemplateItem.next?_plain r (by decide) (by simp))

/-- Where a substitution starts, no character of the text is read. -/
theorem readTemplate_dollar_brace_ne {cs rest : List Char} {items : List TemplateItem} {c : Char} :
    readTemplate r ('$' :: '\x7b' :: cs) ≠ some (.char c :: items, rest) := by
  rw [readTemplate_open (by simp)]
  simp only [next?]
  cases r.read cs with
  | none => simp
  | some found => cases hr : readTemplate r found.2 <;> simp [withItems, hr]

end Read

/-! ### Escaped words -/

section Escape

variable {r : CodeReader}

/-- Escaping does not change whether words start with a brace. -/
theorem head?_escapeTextChars {cs : List Char} (h : cs ≠ []) (after : List Char) :
    (escapeTextChars cs ++ after).head? = some '\x7b' ↔ cs.head? = some '\x7b' := by
  cases cs with
  | nil => exact absurd rfl h
  | cons c cs =>
    unfold escapeTextChars
    split
    · next hc => simp [hc]
    · split
      · next hc => simp [hc]
      · split
        · next hc => simp [hc.1]
        · simp

/-- A dollar sign at the end of words is not escaped. -/
theorem escapeTextChars_concat_dollar (cs : List Char) :
    escapeTextChars (cs ++ ['$']) = escapeTextChars cs ++ ['$'] := by
  induction cs with
  | nil => rfl
  | cons c cs ih =>
    have hhead : (cs ++ ['$']).head? = some '\x7b' ↔ cs.head? = some '\x7b' := by
      cases cs <;> simp
    simp only [List.cons_append, escapeTextChars, ih, hhead]
    split_ifs <;> rfl

/-- **Escaped words come back,** unless they end in a dollar sign and a brace follows. -/
theorem readTemplate_escapeTextChars {cs after : List Char} (hreturn : '\r' ∉ cs)
    (h : ¬(cs.getLast? = some '$' ∧ after.head? = some '\x7b')) :
    readTemplate r (escapeTextChars cs ++ after) =
      withItems (cs.map .char) (readTemplate r after) := by
  induction cs with
  | nil => exact (withItems_nil _).symm
  | cons c cs ih =>
    have hrest : readTemplate r (escapeTextChars cs ++ after) =
        withItems (cs.map .char) (readTemplate r after) := by
      refine ih (fun hmem => hreturn (List.mem_cons_of_mem _ hmem)) fun hlast => h ⟨?_, hlast.2⟩
      rw [List.getLast?_cons, hlast.1]
      rfl
    rw [List.map_cons, withItems_cons, ← hrest, escapeTextChars]
    split
    · next hc => exact readTemplate_of_next (by simp [next?, hc])
    · next hslash =>
      split
      · next hc => exact readTemplate_of_next (by simp [next?, hc])
      · next htick =>
        split
        · next hc => exact readTemplate_of_next (by simp [next?, hc.1])
        · next hdollar =>
          -- The character stands for itself: what comes after it is no brace if it is a dollar sign.
          refine readTemplate_of_next (TemplateItem.next?_plain r ⟨hslash, htick, ?_⟩ ?_)
          · exact fun hc => hreturn (hc ▸ List.mem_cons_self)
          · rintro ⟨rfl, hbrace⟩
            rcases cs with _ | ⟨c, cs⟩
            · exact h ⟨rfl, hbrace⟩
            · exact hdollar ⟨rfl, (head?_escapeTextChars (List.cons_ne_nil c cs) after).mp hbrace⟩

/-- Words that end in a dollar sign do not come back if a brace follows. -/
theorem readTemplate_escapeTextChars_ne {cs after rest : List Char} {items : List TemplateItem}
    (hreturn : '\r' ∉ cs) (hlast : cs.getLast? = some '$') (hbrace : after.head? = some '\x7b') :
    readTemplate r (escapeTextChars cs ++ after) ≠ some (cs.map .char ++ items, rest) := by
  obtain ⟨cs, rfl⟩ := List.getLast?_eq_some_iff.mp hlast
  obtain ⟨after, rfl⟩ := List.head?_eq_some_iff.mp hbrace
  -- All but the dollar sign comes back; the sign itself, not being escaped, starts a substitution.
  have hreturn : '\r' ∉ cs := fun hmem => hreturn (List.mem_append_left _ hmem)
  rw [escapeTextChars_concat_dollar, List.append_assoc,
    readTemplate_escapeTextChars hreturn (by simp), List.map_append, List.append_assoc, ne_eq,
    withItems_eq_some]
  exact readTemplate_dollar_brace_ne

end Escape

/-! ### Words and codes -/

/-- A stretch of a template literal: words, or the code of a substitution. -/
inductive Stretch where
  /-- Words. -/
  | words (text : List Char)
  /-- The code of a substitution. -/
  | code (text : List Char)

namespace Stretch

/-- How a stretch is written if `escape` prepares the words of it. -/
def writtenBy (escape : List Char → List Char) : Stretch → List Char
  | .words text => escape text
  | .code text => '$' :: '\x7b' :: (text ++ ['\x7d'])

/-- How a stretch of a text line is written. -/
def written (s : Stretch) : List Char := s.writtenBy escapeTextChars

/-- What a stretch is to be read as. -/
def items : Stretch → List TemplateItem
  | .words text => text.map .char
  | .code text => [.code text]

/-- The code that a stretch is, if it is one. -/
def code? : Stretch → Option (List Char)
  | .words _ => none
  | .code text => some text

/-- What is asked of a stretch: there are words, and no carriage return among them, or the reader finds
the end of the code. -/
def Readable (r : CodeReader) : Stretch → Prop
  | .words text => text ≠ [] ∧ '\r' ∉ text
  | .code text => r.Finds text

/-- The first stretch ends in a dollar sign and the next one starts with a brace, both as words. -/
def Meets : Stretch → Stretch → Prop
  | .words text, .words next => text.getLast? = some '$' ∧ next.head? = some '\x7b'
  | _, _ => False

/-- What is written starts with a brace only if it starts with words that do. -/
theorem meets_iff {r : CodeReader} {stretches : List Stretch} (h : ∀ s ∈ stretches, s.Readable r)
    (text rest : List Char) :
    (∃ next ∈ stretches.head?, (words text).Meets next) ↔ text.getLast? = some '$' ∧
      (stretches.flatMap written ++ '\x60' :: rest).head? = some '\x7b' := by
  rcases stretches with _ | ⟨next, stretches⟩
  · simp
  · cases next with
    | code code => simp [Meets, written, writtenBy]
    | words next =>
      -- Words that are written are not empty, so they start with their own first character.
      have hne : next ≠ [] := (h _ List.mem_cons_self).1
      simp only [List.head?_cons, Option.mem_some_iff, exists_eq_left', Meets, List.flatMap_cons,
        written, writtenBy, List.append_assoc, head?_escapeTextChars hne]

end Stretch

/-- **A template literal is read as what it was put together from** if and only if no words that end in
a dollar sign meet words that start with a brace. -/
theorem readTemplate_stretches_iff {r : CodeReader} {stretches : List Stretch}
    (h : ∀ s ∈ stretches, s.Readable r) (rest : List Char) :
    readTemplate r (stretches.flatMap Stretch.written ++ '\x60' :: rest) =
        some (stretches.flatMap Stretch.items, rest) ↔
      stretches.IsChain fun s next => ¬s.Meets next := by
  induction stretches with
  | nil => simp [readTemplate_closed]
  | cons s stretches ih =>
    obtain ⟨hs, hstretches⟩ := List.forall_mem_cons.mp h
    rw [List.flatMap_cons, List.flatMap_cons, List.append_assoc, List.isChain_cons, ← ih hstretches]
    cases s with
    | code code =>
      rw [Stretch.written, Stretch.writtenBy, List.cons_append, List.cons_append, List.append_assoc,
        List.singleton_append, readTemplate_code hs, Stretch.items, withItems_eq_some]
      simp [Stretch.Meets]
    | words text =>
      have hmeets := Stretch.meets_iff hstretches text rest
      by_cases hm : ∃ next ∈ stretches.head?, (Stretch.words text).Meets next
      · -- Neither side holds: the dollar sign and the brace are read as a substitution.
        obtain ⟨hlast, hbrace⟩ := hmeets.mp hm
        obtain ⟨next, hnext, hm⟩ := hm
        constructor
        · exact fun hread => absurd hread (readTemplate_escapeTextChars_ne hs.2 hlast hbrace)
        · exact fun hchain => absurd hm (hchain.1 next hnext)
      · -- The words come back, so the rest decides.
        rw [Stretch.written, Stretch.writtenBy, readTemplate_escapeTextChars hs.2 (fun hc => hm (hmeets.mpr hc)),
          Stretch.items, withItems_eq_some, iff_and_self]
        exact fun _ next hnext hnot => hm ⟨next, hnext, hnot⟩

end Story
