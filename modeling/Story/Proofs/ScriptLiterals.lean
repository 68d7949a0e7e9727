import Story.Proofs.Templates

/-!
# Literals that are read back

Names of a story stand between single quotes in the generated script, and its words between back-ticks.
When the script runs, both are read again. This file says how a literal between single quotes is read, and
that what was written comes back.

* `readQuoted` — reads a literal from its opening quote to the quote that ends it. A raw line break is
  refused, and of the escape sequences those are known that `quoteChar` writes;
* `readQuoted_eq_some_iff` — a literal is read as a text if and only if `quoteName` writes that text so;
* `readTemplate_escapeText_iff` — words between back-ticks come back if and only if there is no carriage
  return among them. A template literal cannot have one: it is read as a line feed;
* `literals_read_back` — both together.
-/

namespace Story

/-! ### Between single quotes -/

/-- What the character after a backslash stands for. -/
def unescape? (c : Char) : Option Char :=
  if c = '\\' ∨ c = '\x27' then some c
  else if c = 'n' then some '\n'
  else if c = 'r' then some '\r'
  else none

/-- Read a literal after its opening quote: its text and what comes after the quote that ends it. -/
def readAfterQuote : List Char → Option (List Char × List Char)
  | [] | ['\\'] => none
  | '\\' :: c :: cs => (unescape? c).bind fun d => (readAfterQuote cs).map (Prod.map (d :: ·) id)
  | c :: cs =>
    if c = '\x27' then some ([], cs)
    else if c = '\n' ∨ c = '\r' then none
    else (readAfterQuote cs).map (Prod.map (c :: ·) id)

/-- Read a literal between single quotes: its text and what comes after it. -/
def readQuoted (cs : List Char) : Option (List Char × List Char) :=
  if cs.head? = some '\x27' then readAfterQuote cs.tail else none

/-- A character is read as it was written, and then the rest. -/
theorem readAfterQuote_quoteChar (c : Char) (cs : List Char) :
    readAfterQuote (quoteChar c ++ cs) = (readAfterQuote cs).map (Prod.map (c :: ·) id) := by
  unfold quoteChar
  split_ifs with hslash hquote hfeed hreturn
  case neg => simp [readAfterQuote, hslash, hquote, hfeed, hreturn]
  all_goals
    subst c
    simp [readAfterQuote, unescape?]

/-- A known escape sequence is the one that is written. -/
theorem quoteChar_of_unescape {c d : Char} (h : unescape? c = some d) : quoteChar d = ['\\', c] := by
  unfold unescape? at h
  split_ifs at h with hself hfeed hreturn <;> cases h
  · obtain rfl | rfl := hself <;> rfl
  · rw [hfeed]
    rfl
  · rw [hreturn]
    rfl

/-- The text of a literal was written as the literal. -/
theorem eq_of_readAfterQuote {cs text rest : List Char} (h : readAfterQuote cs = some (text, rest)) :
    cs = text.flatMap quoteChar ++ '\x27' :: rest := by
  -- A step reads one character; what it leaves is the literal of what is left of the text.
  fun_induction readAfterQuote cs generalizing text with
  | case1 => cases h
  | case2 => cases h
  | case3 c cs ih =>
    obtain ⟨d, hd, h⟩ := Option.bind_eq_some_iff.mp h
    obtain ⟨⟨text, after⟩, hcs, heq⟩ := Option.map_eq_some_iff.mp h
    cases heq
    rw [List.flatMap_cons, quoteChar_of_unescape hd, ih hcs]
    rfl
  | case4 cs =>
    cases h
    rfl
  | case5 => cases h
  | case6 c cs hlast hescape hquote hbreak ih =>
    obtain ⟨⟨text, after⟩, hcs, heq⟩ := Option.map_eq_some_iff.mp h
    cases heq
    -- A backslash would have been read by one of the cases before.
    have hslash : c ≠ '\\' := by
      cases cs with
      | nil => exact fun hc => hlast hc rfl
      | cons d cs => exact fun hc => hescape d cs hc rfl
    have hplain : quoteChar c = [c] := by simp_all [quoteChar]
    rw [List.flatMap_cons, hplain, ih hcs]
    rfl

theorem readAfterQuote_flatMap (text rest : List Char) :
    readAfterQuote (text.flatMap quoteChar ++ '\x27' :: rest) = some (text, rest) := by
  induction text with
  | nil => rfl
  | cons c text ih =>
    rw [List.flatMap_cons, List.append_assoc, readAfterQuote_quoteChar, ih]
    rfl

/-- The characters of a name between single quotes. -/
theorem toList_quoteName (text : String) :
    (quoteName text).toList = '\x27' :: (text.toList.flatMap quoteChar ++ ['\x27']) := by
  simp [quoteName]

/-- **A literal between single quotes is read as a text if and only if the text is written so.** -/
theorem readQuoted_eq_some_iff {cs rest : List Char} {text : String} :
    readQuoted cs = some (text.toList, rest) ↔ cs = (quoteName text).toList ++ rest := by
  rw [toList_quoteName, List.cons_append, List.append_assoc, List.singleton_append, readQuoted]
  constructor
  · intro h
    split at h
    · next hhead =>
      obtain ⟨cs, rfl⟩ := List.head?_eq_some_iff.mp hhead
      rw [← eq_of_readAfterQuote h]
      rfl
    · cases h
  · rintro rfl
    exact readAfterQuote_flatMap text.toList rest

/-- There is no raw line break between single quotes. -/
theorem notMem_quoteName (text : String) :
    '\n' ∉ (quoteName text).toList ∧ '\r' ∉ (quoteName text).toList := by
  have hchar (c : Char) : '\n' ∉ quoteChar c ∧ '\r' ∉ quoteChar c := by
    unfold quoteChar
    split_ifs <;> simp_all [eq_comm]
  simp [toList_quoteName, hchar]

/-! ### Between back-ticks -/

/-- A carriage return is never read. -/
theorem TemplateItem.next?_ne_return {r : CodeReader} {cs rest : List Char} {i : TemplateItem}
    (h : next? r cs = some (i, rest)) : i ≠ .char '\r' := by
  unfold next? at h
  split at h
  case h_1 => cases h
  case h_3 =>
    -- A substitution is code and no character at all.
    obtain ⟨found, -, heq⟩ := Option.map_eq_some_iff.mp h
    cases heq
    simp
  case h_6 c cs _ _ _ hc =>
    split_ifs at h
    cases h
    simpa using hc
  all_goals
    cases h
    grind

theorem notMem_of_readTemplate {r : CodeReader} {cs rest : List Char} {items : List TemplateItem}
    (h : readTemplate r cs = some (items, rest)) : .char '\r' ∉ items := by
  fun_induction readTemplate r cs generalizing items with
  | case1 cs hend =>
    cases h
    exact List.not_mem_nil
  | case2 => cases h
  -- The reader gives out one item after the other, and none of them is a carriage return.
  | case3 cs hopen i after hnext ih =>
    obtain ⟨⟨items, rest⟩, hafter, heq⟩ := Option.map_eq_some_iff.mp h
    cases heq
    rw [List.mem_cons, not_or]
    exact ⟨(TemplateItem.next?_ne_return hnext).symm, ih hafter⟩

/-- **Words between back-ticks come back,** with no substitution and no early end, if and only if there is
no carriage return among them. -/
theorem readTemplate_escapeText_iff (r : CodeReader) (text : String) (rest : List Char) :
    readTemplate r ((escapeText text).toList ++ '\x60' :: rest) = some (text.toList.map .char, rest) ↔
      '\r' ∉ text.toList := by
  rw [escapeText, String.toList_ofList]
  constructor
  · intro h hreturn
    exact notMem_of_readTemplate h (List.mem_map_of_mem hreturn)
  · intro hreturn
    rw [readTemplate_escapeTextChars hreturn (by simp), readTemplate_closed]
    simp [withItems]

/-! ### Both literals -/

/-- **Literals are read back.** A literal between single quotes is read as `text` if and only if it is the
one that `quoteName` writes for it, whatever comes after, and there is no raw line break in that. Between
back-ticks the escaped `text` is read as its own characters, with no substitution and no early end, if and
only if there is no carriage return in it. -/
theorem literals_read_back (text : String) (rest : List Char) :
    (∀ cs, readQuoted cs = some (text.toList, rest) ↔ cs = (quoteName text).toList ++ rest) ∧
      '\n' ∉ (quoteName text).toList ∧ '\r' ∉ (quoteName text).toList ∧
      ∀ r : CodeReader, readTemplate r ((escapeText text).toList ++ '\x60' :: rest) =
        some (text.toList.map .char, rest) ↔ '\r' ∉ text.toList :=
  ⟨fun _ => readQuoted_eq_some_iff, (notMem_quoteName text).1, (notMem_quoteName text).2,
    fun r => readTemplate_escapeText_iff r text rest⟩

end Story
