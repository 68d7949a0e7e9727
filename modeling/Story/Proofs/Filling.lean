import Mathlib.Data.List.Infix
import Story.Diagnostic

/-!
# Filling templates

`fill` puts the arguments of a message into the places of its template one argument after the other. The
places of an argument are looked for in all of the text that the arguments before it have left, so a place
may also come from one of them, or from the template and the edge of one. This file compares that with
filling all places of the template at once.

* `Mark` — a text that cannot overlap with itself, such as a place; a text is read along it occurrence by
  occurrence (`Mark.reading`);
* `Mark.Fills` — some occurrences of a mark are replaced by a value; `Mark.Fills.replaceAll_eq_iff` says when
  this is the same as replacing them all;
* `fillAtOnce` — what an argument brings in is not looked at again. One more argument fills the places that
  the template has for it, and no others (`fillOnce_concat`);
* `fill_at_once_iff` — so each argument is filled in at once if and only if it finds no other places, or is
  such a place itself. For a message about a path (`aboutTwo`) the path decides.
-/

namespace Story

/-! ### Marks -/

/-- A text with a first character that stands nowhere else in it. Two occurrences of it do not overlap. -/
structure Mark where
  /-- The first character. -/
  sign : Char
  /-- The other characters. -/
  body : List Char
  sign_notMem : sign ∉ body

/-- The characters of a mark. -/
def Mark.chars (m : Mark) : List Char := m.sign :: m.body

/-- How often `mark` stands in a text. -/
def occurrences (mark : List Char) : List Char → Nat
  | [] => 0
  | c :: cs => (if mark.isPrefixOf (c :: cs) then 1 else 0) + occurrences mark cs

/-- A text is there before a character that is not in it, or it is not there at all. -/
theorem prefix_append_cons_iff {c : Char} {cs s t : List Char} (h : c ∉ cs) :
    cs <+: s ++ c :: t ↔ cs <+: s := by
  constructor
  · intro hprefix
    induction cs generalizing s with
    | nil => exact List.nil_prefix
    | cons d cs ih =>
      obtain ⟨hd, hcs⟩ := List.ne_and_not_mem_of_not_mem_cons h
      -- The character is not in the text, so the text does not go beyond it.
      cases s with
      | nil => exact absurd (List.cons_prefix_cons.mp hprefix).1.symm hd
      | cons e s =>
        obtain ⟨rfl, hrest⟩ := List.cons_prefix_cons.mp hprefix
        exact List.cons_prefix_cons.mpr ⟨rfl, ih hcs hrest⟩
  · exact fun hprefix => hprefix.trans (List.prefix_append s _)

namespace Mark

variable {m : Mark} {value s t : List Char} {c : Char}

theorem chars_append (m : Mark) (t : List Char) : m.chars ++ t = m.sign :: (m.body ++ t) := rfl

theorem isPrefixOf_append (m : Mark) (t : List Char) : m.chars.isPrefixOf (m.chars ++ t) = true :=
  List.isPrefixOf_iff_prefix.mpr (List.prefix_append _ t)

theorem isPrefixOf_of_ne (h : m.sign ≠ c) : m.chars.isPrefixOf (c :: t) = false := by
  simp [chars, List.isPrefixOf, h]

theorem isPrefixOf_append_cons {d : Char} (h : c ∉ m.body) :
    m.chars.isPrefixOf (d :: (s ++ c :: t)) = m.chars.isPrefixOf (d :: s) := by
  rw [Bool.eq_iff_iff, List.isPrefixOf_iff_prefix, List.isPrefixOf_iff_prefix, chars, List.cons_prefix_cons,
    List.cons_prefix_cons, prefix_append_cons_iff h]

/-- **Reading along marks.** A text is read from left to right, mark by mark; what is no mark is read
character by character. -/
@[elab_as_elim]
theorem readingAll {motive : List Char → Prop} (isMark : Mark → Prop) (nil : motive [])
    (mark : ∀ m, isMark m → ∀ t, motive t → motive (m.chars ++ t))
    (char : ∀ c t, (∀ m, isMark m → ¬m.chars <+: c :: t) → motive t → motive (c :: t)) (s : List Char) :
    motive s := by
  -- A mark is read as a whole, so the induction is on how much is left.
  induction hn : s.length using Nat.strong_induction_on generalizing s with
  | _ n ih =>
    cases s with
    | nil => exact nil
    | cons c s =>
      subst hn
      by_cases hmark : ∃ m, isMark m ∧ m.chars <+: c :: s
      · obtain ⟨m, hm, t, ht⟩ := hmark
        have hlt : t.length < (c :: s).length := by
          rw [← ht, chars_append, List.length_cons, List.length_append]
          omega
        exact ht ▸ mark m hm t (ih t.length hlt t rfl)
      · have hchar : ∀ m, isMark m → ¬m.chars <+: c :: s := fun m hm hprefix => hmark ⟨m, hm, hprefix⟩
        exact char c s hchar (ih s.length (Nat.lt_succ_self _) s rfl)

/-- Reading along one mark. -/
@[elab_as_elim]
theorem reading {motive : List Char → Prop} (m : Mark) (nil : motive [])
    (mark : ∀ t, motive t → motive (m.chars ++ t))
    (char : ∀ c t, m.chars.isPrefixOf (c :: t) = false → motive t → motive (c :: t)) (s : List Char) :
    motive s := by
  refine readingAll (· = m) nil (fun _ hm t => hm ▸ mark t) (fun c t hchar => char c t ?_) s
  rw [Bool.eq_false_iff, ne_eq, List.isPrefixOf_iff_prefix]
  exact hchar m rfl

/-! Replacing and counting, occurrence by occurrence. -/

theorem replaceAll_append (m : Mark) (value t : List Char) :
    replaceAll m.chars value (m.chars ++ t) = value ++ replaceAll m.chars value t := by
  have hprefix : m.chars.isPrefixOf (m.sign :: (m.body ++ t)) = true := m.isPrefixOf_append t
  rw [chars_append, replaceAll, if_pos hprefix]
  simp [chars]

theorem replaceAll_cons (h : m.chars.isPrefixOf (c :: t) = false) :
    replaceAll m.chars value (c :: t) = c :: replaceAll m.chars value t := by
  rw [replaceAll, h]
  rfl

theorem occurrences_cons (h : m.chars.isPrefixOf (c :: t) = false) :
    occurrences m.chars (c :: t) = occurrences m.chars t := by
  rw [occurrences, h]
  exact Nat.zero_add _

/-- No occurrence starts where the sign is not. -/
theorem occurrences_of_notMem (h : m.sign ∉ s) (t : List Char) :
    occurrences m.chars (s ++ t) = occurrences m.chars t := by
  induction s with
  | nil => rfl
  | cons d s ih =>
    obtain ⟨hd, hs⟩ := List.ne_and_not_mem_of_not_mem_cons h
    rw [List.cons_append, occurrences_cons (isPrefixOf_of_ne hd), ih hs]

theorem replaceAll_of_notMem (h : m.sign ∉ s) (value t : List Char) :
    replaceAll m.chars value (s ++ t) = s ++ replaceAll m.chars value t := by
  induction s with
  | nil => rfl
  | cons d s ih =>
    obtain ⟨hd, hs⟩ := List.ne_and_not_mem_of_not_mem_cons h
    rw [List.cons_append, replaceAll_cons (isPrefixOf_of_ne hd), ih hs]
    rfl

theorem occurrences_append (m : Mark) (t : List Char) :
    occurrences m.chars (m.chars ++ t) = occurrences m.chars t + 1 := by
  have hprefix : m.chars.isPrefixOf (m.sign :: (m.body ++ t)) = true := m.isPrefixOf_append t
  rw [chars_append, occurrences, if_pos hprefix,
    occurrences_of_notMem m.sign_notMem, Nat.add_comm]

/-! A character that does not stand in the body of a mark parts a text in two. -/

theorem occurrences_append_cons (h : c ∉ m.body) :
    occurrences m.chars (s ++ c :: t) = occurrences m.chars s + occurrences m.chars (c :: t) := by
  induction s with
  | nil => exact (Nat.zero_add _).symm
  | cons d s ih =>
    rw [List.cons_append, occurrences, isPrefixOf_append_cons h, ih, ← Nat.add_assoc]
    rfl

theorem replaceAll_append_cons (h : c ∉ m.body) :
    replaceAll m.chars value (s ++ c :: t) = replaceAll m.chars value s ++ replaceAll m.chars value (c :: t) := by
  induction s using m.reading with
  | nil => simp [replaceAll]
  | mark s ih => rw [List.append_assoc, replaceAll_append, replaceAll_append, ih, List.append_assoc]
  | char d s hd ih =>
    -- An occurrence that starts at `d` would end before `c`, and there is none in `s`.
    rw [List.cons_append, replaceAll_cons ((isPrefixOf_append_cons h).trans hd), replaceAll_cons hd, ih]
    rfl

/-! An occurrence parts a text in two as well. -/

theorem occurrences_append_mark (m : Mark) (s t : List Char) :
    occurrences m.chars (s ++ (m.chars ++ t)) = occurrences m.chars s + occurrences m.chars t + 1 := by
  rw [chars_append, occurrences_append_cons m.sign_notMem, ← chars_append, occurrences_append, Nat.add_assoc]

theorem replaceAll_append_mark (m : Mark) (value s t : List Char) :
    replaceAll m.chars value (s ++ (m.chars ++ t)) =
      replaceAll m.chars value s ++ (value ++ replaceAll m.chars value t) := by
  rw [chars_append, replaceAll_append_cons m.sign_notMem, ← chars_append, replaceAll_append]

/-! ### What replacing changes -/

theorem exists_of_occurrences (h : occurrences m.chars s ≠ 0) : ∃ t u, s = t ++ (m.chars ++ u) := by
  induction s using m.reading with
  | nil => exact absurd rfl h
  | mark s ih => exact ⟨[], s, rfl⟩
  | char c s hc ih =>
    rw [occurrences_cons hc] at h
    obtain ⟨t, u, rfl⟩ := ih h
    exact ⟨c :: t, u, rfl⟩

theorem replaceAll_of_occurrences (h : occurrences m.chars s = 0) : replaceAll m.chars value s = s := by
  induction s using m.reading with
  | nil => simp [replaceAll]
  | mark s ih => exact absurd h (by rw [occurrences_append]; exact Nat.succ_ne_zero _)
  | char c s hc ih =>
    rw [occurrences_cons hc] at h
    rw [replaceAll_cons hc, ih h]

theorem replaceAll_self (m : Mark) (s : List Char) : replaceAll m.chars m.chars s = s := by
  induction s using m.reading with
  | nil => simp [replaceAll]
  | mark s ih => rw [replaceAll_append, ih]
  | char c s hc ih => rw [replaceAll_cons hc, ih]

theorem length_replaceAll (m : Mark) (value s : List Char) :
    (replaceAll m.chars value s).length + occurrences m.chars s * m.chars.length =
      s.length + occurrences m.chars s * value.length := by
  -- By induction on how the mark is found: a mark gives way to the value, any other character stays.
  induction s using m.reading with
  | nil => simp [replaceAll, occurrences]
  | mark s ih =>
    rw [replaceAll_append, occurrences_append, List.length_append, List.length_append, Nat.add_mul, Nat.add_mul]
    omega
  | char c s hc ih =>
    rw [replaceAll_cons hc, occurrences_cons hc, List.length_cons, List.length_cons]
    omega

/-- `m.Fills value n s t`: `t` is the text `s` with `n` occurrences of the mark replaced, of those there
are. -/
inductive Fills (m : Mark) (value : List Char) : Nat → List Char → List Char → Prop where
  | done (s : List Char) : Fills m value 0 s s
  | next (s : List Char) {n : Nat} {t u : List Char} (h : Fills m value n t u) :
      Fills m value (n + 1) (s ++ (m.chars ++ t)) (s ++ (value ++ u))

namespace Fills

variable {n : Nat} {u : List Char}

theorem append (s : List Char) (h : m.Fills value n t u) : m.Fills value n (s ++ t) (s ++ u) := by
  cases h with
  | done t => exact .done (s ++ t)
  | next t h =>
    have hnext := next (s ++ t) h
    rwa [List.append_assoc, List.append_assoc] at hnext

theorem le_occurrences (h : m.Fills value n t u) : n ≤ occurrences m.chars t := by
  induction h with
  | done t => exact Nat.zero_le _
  | next s h ih =>
    rw [occurrences_append_mark]
    omega

theorem length_eq (h : m.Fills value n t u) :
    u.length + n * m.chars.length = t.length + n * value.length := by
  induction h with
  | done t => simp
  | next s h ih =>
    simp only [List.length_append, Nat.add_mul]
    omega

theorem eq_of_self (h : m.Fills m.chars n t u) : t = u := by
  induction h with
  | done t => rfl
  | next s h ih => rw [ih]

/-- All occurrences are replaced if there are no more than these. -/
theorem replaceAll_eq (h : m.Fills value n t u) (hn : occurrences m.chars t = n) :
    replaceAll m.chars value t = u := by
  induction h with
  | done t => exact replaceAll_of_occurrences hn
  | next s h ih =>
    rw [occurrences_append_mark] at hn
    -- What was replaced in the rest accounts for all the others, so none is left for `s`.
    have hle := h.le_occurrences
    rw [replaceAll_append_mark, replaceAll_of_occurrences (by omega), ih (by omega)]

/-- A value that is as long as the mark and leaves the text as it was is the mark, if it was needed at
all. -/
theorem eq_chars_of_replaceAll (h : m.Fills value n t u) (heq : replaceAll m.chars value t = u)
    (hlength : value.length = m.chars.length) : value = m.chars ∨ occurrences m.chars t = n := by
  have hkept (s : List Char) : (replaceAll m.chars value s).length = s.length := by
    have hs := m.length_replaceAll value s
    rw [hlength] at hs
    omega
  -- What comes before a replaced occurrence is as long as before, so each occurrence meets its value.
  have hself {s : List Char} (hs : replaceAll m.chars value s = s) :
      value = m.chars ∨ occurrences m.chars s = 0 := by
    by_cases hzero : occurrences m.chars s = 0
    · exact .inr hzero
    · obtain ⟨s, t, rfl⟩ := exists_of_occurrences hzero
      rw [replaceAll_append_mark] at hs
      have hvalue := (List.append_inj hs (hkept s)).2
      exact .inl (List.append_inj hvalue hlength).1
  induction h with
  | done t => exact hself heq
  | next s h ih =>
    rw [replaceAll_append_mark] at heq
    obtain ⟨hs, hrest⟩ := List.append_inj heq (hkept s)
    obtain hvalue | hcount := ih (List.append_cancel_left hrest)
    · exact .inl hvalue
    · refine (hself hs).imp_right fun hzero => ?_
      rw [occurrences_append_mark, hzero, hcount, Nat.zero_add]

/-- **What a replacement comes to.** Replacing all occurrences gives the same as replacing some of them if
and only if there are no others, or the mark is replaced by itself. -/
theorem replaceAll_eq_iff (h : m.Fills value n t u) :
    replaceAll m.chars value t = u ↔ value = m.chars ∨ occurrences m.chars t = n := by
  constructor
  · intro heq
    -- Each occurrence that is replaced as well changes the length, unless the value is as long as the mark.
    obtain ⟨k, hk⟩ := Nat.exists_eq_add_of_le h.le_occurrences
    have hall := m.length_replaceAll value t
    have hsome := h.length_eq
    rw [heq, hk, Nat.add_mul, Nat.add_mul] at hall
    have hlengths : k * value.length = k * m.chars.length := by omega
    obtain rfl | hpos := k.eq_zero_or_pos
    · exact .inr hk
    · exact h.eq_chars_of_replaceAll heq (Nat.eq_of_mul_eq_mul_left hpos hlengths)
  · rintro (rfl | hn)
    · rw [replaceAll_self, h.eq_of_self]
    · exact h.replaceAll_eq hn

end Fills

end Mark

/-! ### Places -/

theorem notMem_toDigits {c : Char} (h : c.isDigit = false) (i : Nat) : c ∉ Nat.toDigits 10 i := by
  intro hmem
  rw [Nat.isDigit_of_mem_toDigits (by decide) (by decide) hmem] at h
  cases h

/-- The place for the argument with number `i`, as a mark. -/
def place (i : Nat) : Mark where
  sign := '\x7b'
  body := Nat.toDigits 10 i ++ ['\x7d']
  sign_notMem := by
    rw [List.mem_append, not_or]
    exact ⟨notMem_toDigits (by decide) i, by decide⟩

theorem toList_placeholder (i : Nat) : (placeholder i).toList = (place i).chars := by
  simp [placeholder, place, Mark.chars, ← Nat.toList_repr]

/-- Two places that stand at one spot are the same. -/
theorem place_unique {i j : Nat} {s t : List Char} (h : (place i).chars ++ s = (place j).chars ++ t) : i = j := by
  have hbody : Nat.toDigits 10 i ++ '\x7d' :: s = Nat.toDigits 10 j ++ '\x7d' :: t := by
    simpa [place, Mark.chars] using h
  -- The digits end at the first closing brace, so those of each number start with those of the other.
  have hend (k : Nat) : '\x7d' ∉ Nat.toDigits 10 k := notMem_toDigits (by decide) k
  have hij : Nat.toDigits 10 i <+: Nat.toDigits 10 j := (prefix_append_cons_iff (hend i)).mp ⟨_, hbody⟩
  have hji : Nat.toDigits 10 j <+: Nat.toDigits 10 i := (prefix_append_cons_iff (hend j)).mp ⟨_, hbody.symm⟩
  have hdigits : Nat.toDigits 10 i = Nat.toDigits 10 j := hij.eq_of_length_le hji.length_le
  rw [← Nat.ofDigitChars_ten_toDigits (n := i), hdigits, Nat.ofDigitChars_ten_toDigits]

/-- How many places for the argument with number `i` there are in a text. -/
def places (i : Nat) (text : String) : Nat := occurrences (placeholder i).toList text.toList

/-! ### All places at once -/

/-- The place that a text starts with, of those for `n` arguments. -/
def placeAt? (n : Nat) (cs : List Char) : Option Nat :=
  (List.range n).find? fun i => (placeholder i).toList.isPrefixOf cs

/-- Fill the places of a template, and pass over what has been put there. -/
def fillOnce (arguments : List String) : List Char → List Char
  | [] => []
  | c :: cs =>
    (placeAt? arguments.length (c :: cs)).elim (c :: fillOnce arguments cs) fun i =>
      (arguments.getD i "").toList ++ fillOnce arguments (cs.drop ((placeholder i).length - 1))
termination_by cs => cs.length
decreasing_by
  · simp
  · simp only [List.length_drop, List.length_cons]; omega

/-- **Fill all places at once:** each place of the template is replaced by its argument, and nothing else
changes. -/
def fillAtOnce (template : String) (arguments : List String) : String :=
  String.ofList (fillOnce arguments template.toList)

theorem placeAt?_eq_some_iff {n i : Nat} {cs : List Char} :
    placeAt? n cs = some i ↔ i < n ∧ (place i).chars <+: cs := by
  simp only [placeAt?, toList_placeholder]
  constructor
  · intro h
    have hprefix := List.find?_some h
    exact ⟨List.mem_range.mp (List.mem_of_find?_eq_some h), List.isPrefixOf_iff_prefix.mp hprefix⟩
  · rintro ⟨hi, t, ht⟩
    -- Some place is found, and it is this one, since no place starts like another.
    cases hfound : (List.range n).find? fun j => (place j).chars.isPrefixOf cs with
    | none =>
      have hnone := List.find?_eq_none.mp hfound i (List.mem_range.mpr hi)
      exact absurd (List.isPrefixOf_iff_prefix.mpr ⟨t, ht⟩) hnone
    | some j =>
      have hprefix := List.find?_some hfound
      obtain ⟨u, hu⟩ := List.isPrefixOf_iff_prefix.mp hprefix
      rw [place_unique (hu.trans ht.symm)]

section Once

variable {arguments : List String} {i : Nat} {c : Char} {s : List Char}

theorem fillOnce_place (h : i < arguments.length) (t : List Char) :
    fillOnce arguments ((place i).chars ++ t) = arguments[i].toList ++ fillOnce arguments t := by
  have hplace : placeAt? arguments.length ((place i).sign :: ((place i).body ++ t)) = some i :=
    placeAt?_eq_some_iff.mpr ⟨h, List.prefix_append (place i).chars t⟩
  have hlength : (placeholder i).length - 1 = (place i).body.length := by
    rw [← String.length_toList, toList_placeholder]
    rfl
  rw [Mark.chars_append, fillOnce, hplace]
  simp [hlength, h]

theorem fillOnce_char {t : List Char} (h : ∀ i < arguments.length, ¬(place i).chars <+: c :: t) :
    fillOnce arguments (c :: t) = c :: fillOnce arguments t := by
  have hplace : placeAt? arguments.length (c :: t) = none := by
    rw [Option.eq_none_iff_forall_ne_some]
    intro i hi
    obtain ⟨hlt, hprefix⟩ := placeAt?_eq_some_iff.mp hi
    exact h i hlt hprefix
  rw [fillOnce, hplace]
  rfl

/-- What has no opening brace is passed over. -/
theorem fillOnce_of_notMem (h : '\x7b' ∉ s) (t : List Char) :
    fillOnce arguments (s ++ t) = s ++ fillOnce arguments t := by
  induction s with
  | nil => rfl
  | cons c s ih =>
    obtain ⟨hc, hs⟩ := List.ne_and_not_mem_of_not_mem_cons h
    have hplace (i : Nat) : ¬(place i).chars <+: c :: (s ++ t) :=
      fun hprefix => hc (List.cons_prefix_cons.mp hprefix).1
    rw [List.cons_append, fillOnce_char fun i _ => hplace i, ih hs]
    rfl

theorem fillOnce_eq_self (h : '\x7b' ∉ s) : fillOnce arguments s = s := by
  rw [← List.append_nil s, fillOnce_of_notMem h, fillOnce]

/-- A place that has no argument is passed over as well. -/
theorem fillOnce_place_of_le (h : arguments.length ≤ i) (t : List Char) :
    fillOnce arguments ((place i).chars ++ t) = (place i).chars ++ fillOnce arguments t := by
  -- A place starts like no other place, and those with arguments are others.
  have hplace (j : Nat) (hj : j < arguments.length) : ¬(place j).chars <+: (place i).chars ++ t := by
    rintro ⟨u, hu⟩
    have := place_unique hu
    omega
  have hbody : fillOnce arguments ((place i).body ++ t) = (place i).body ++ fillOnce arguments t :=
    fillOnce_of_notMem (place i).sign_notMem t
  rw [Mark.chars_append] at hplace ⊢
  rw [fillOnce_char hplace, hbody]
  rfl

/-- With no arguments nothing changes. -/
theorem fillOnce_nil (s : List Char) : fillOnce [] s = s := by
  induction s with
  | nil => simp [fillOnce]
  | cons c s ih => rw [fillOnce_char (by simp), ih]

/-- A place for another argument is no place for this one. -/
theorem occurrences_place_of_ne {j : Nat} (h : i ≠ j) (t : List Char) :
    occurrences (place j).chars ((place i).chars ++ t) = occurrences (place j).chars t := by
  have hprefix : (place j).chars.isPrefixOf ((place i).sign :: ((place i).body ++ t)) = false := by
    rw [Bool.eq_false_iff, ne_eq, List.isPrefixOf_iff_prefix]
    rintro ⟨u, hu⟩
    exact h (place_unique hu).symm
  have hbody : (place j).sign ∉ (place i).body := (place i).sign_notMem
  rw [Mark.chars_append, Mark.occurrences_cons hprefix, Mark.occurrences_of_notMem hbody]

/-- **One more argument** fills just the places that the template has for it. -/
theorem fillOnce_concat (arguments : List String) (a : String) (s : List Char) :
    (place arguments.length).Fills a.toList (occurrences (place arguments.length).chars s)
      (fillOnce arguments s) (fillOnce (arguments ++ [a]) s) := by
  -- The text is read along the places of all arguments, the new one included.
  induction s using Mark.readingAll fun m => ∃ i ≤ arguments.length, m = place i with
  | nil => simpa [fillOnce, occurrences] using Mark.Fills.done []
  | mark m hm t ih =>
    obtain ⟨i, hi, rfl⟩ := hm
    obtain hlt | rfl := Nat.lt_or_eq_of_le hi
    · -- The place of an earlier argument is filled in both texts, and in the same way.
      rw [occurrences_place_of_ne (Nat.ne_of_lt hlt), fillOnce_place hlt,
        fillOnce_place (by simp; omega), List.getElem_append_left hlt]
      exact ih.append _
    · -- The place of the new argument is still there in the first text.
      rw [Mark.occurrences_append, fillOnce_place_of_le (Nat.le_refl _), fillOnce_place (by simp)]
      simpa using Mark.Fills.next [] ih
  | char c t hchar ih =>
    have hplace (i : Nat) (hi : i ≤ arguments.length) : ¬(place i).chars <+: c :: t := hchar _ ⟨i, hi, rfl⟩
    have hnone : (place arguments.length).chars.isPrefixOf (c :: t) = false := by
      rw [Bool.eq_false_iff, ne_eq, List.isPrefixOf_iff_prefix]
      exact hplace _ (Nat.le_refl _)
    rw [Mark.occurrences_cons hnone, fillOnce_char fun i hi => hplace i (Nat.le_of_lt hi),
      fillOnce_char fun i hi => hplace i (by simp at hi; omega)]
    exact ih.append [c]

end Once

/-! ### One after the other -/

/-- The last argument is filled in last. -/
theorem fillFrom_concat (i : Nat) (template : List Char) (arguments : List String) (a : String) :
    fillFrom i template (arguments ++ [a]) =
      replaceAll (place (i + arguments.length)).chars a.toList (fillFrom i template arguments) := by
  induction arguments generalizing i template with
  | nil => simp [fillFrom, toList_placeholder]
  | cons b arguments ih =>
    rw [List.cons_append, fillFrom, ih, List.length_cons, fillFrom, Nat.add_right_comm, Nat.add_assoc]

/-- **One more argument.** If the arguments so far were filled in at once, so is the next one, if and only if
it finds just the places that the template has for it, or is such a place itself. -/
theorem fill_concat_eq_iff {template : String} {arguments : List String}
    (h : fill template arguments = fillAtOnce template arguments) (a : String) :
    fill template (arguments ++ [a]) = fillAtOnce template (arguments ++ [a]) ↔
      a = placeholder arguments.length ∨
        places arguments.length (fillAtOnce template arguments) = places arguments.length template := by
  have hsofar : fillFrom 0 template.toList arguments = fillOnce arguments template.toList :=
    String.ofList_injective h
  -- The last argument is put in at once, or after the ones before it.
  have hstep := (fillOnce_concat arguments a template.toList).replaceAll_eq_iff
  rw [fill, fillAtOnce, String.ofList_inj, fillFrom_concat, hsofar, Nat.zero_add, hstep,
    ← toList_placeholder, String.toList_inj]
  simp only [places, fillAtOnce, String.toList_ofList]

theorem fill_nil (template : String) : fill template [] = fillAtOnce template [] := by
  rw [fill, fillFrom, fillAtOnce, fillOnce_nil]

/-- The first argument finds the template as it is. -/
theorem fill_singleton (template a : String) : fill template [a] = fillAtOnce template [a] := by
  refine (fill_concat_eq_iff (fill_nil template) a).mpr (.inr ?_)
  rw [fillAtOnce, fillOnce_nil, String.ofList_toList]

theorem fill_pair (template a b : String) :
    fill template [a, b] =
      String.ofList (replaceAll (placeholder 1).toList b.toList (fill template [a]).toList) := by
  simp [fill, fillFrom]

/-- **All arguments.** Each of the first arguments is filled in at once if and only if none of them finds a
place that comes from an earlier one. -/
theorem fill_take_eq_iff (template : String) (arguments : List String) :
    (∀ n ≤ arguments.length,
        fill template (arguments.take n) = fillAtOnce template (arguments.take n)) ↔
      ∀ n (h : n < arguments.length), arguments[n] = placeholder n ∨
        places n (fillAtOnce template (arguments.take n)) = places n template := by
  -- Both sides go up by one argument at a time.
  have hstep {n : Nat} (hn : n < arguments.length)
      (h : fill template (arguments.take n) = fillAtOnce template (arguments.take n)) :
      fill template (arguments.take (n + 1)) = fillAtOnce template (arguments.take (n + 1)) ↔
        arguments[n] = placeholder n ∨
          places n (fillAtOnce template (arguments.take n)) = places n template := by
    have hlength : (arguments.take n).length = n := List.length_take_of_le (Nat.le_of_lt hn)
    have hnext := fill_concat_eq_iff h arguments[n]
    rwa [hlength, List.take_append_getElem hn] at hnext
  constructor
  · intro h n hn
    exact (hstep hn (h n (Nat.le_of_lt hn))).mp (h (n + 1) hn)
  · intro h n hn
    induction n with
    | zero => exact fill_nil template
    | succ n ih => exact (hstep hn (ih (Nat.le_of_lt hn))).mpr (h n hn)

/-! ### Messages about two things -/

/-- A text about two things, of which the first stands between single quotes and the second at the end. -/
def aboutTwo (before between a b : String) : String := before ++ "'" ++ a ++ "'" ++ between ++ b ++ "."

theorem toList_aboutTwo (before between a b : String) :
    (aboutTwo before between a b).toList =
      (before.toList ++ ['\x27']) ++ (a.toList ++ (('\x27' :: between.toList) ++ (b.toList ++ ['.']))) := by
  simp [aboutTwo]

section AboutTwo

variable {before between : String} (hbefore : '\x7b' ∉ before.toList) (hbetween : '\x7b' ∉ between.toList)

include hbefore hbetween

theorem fillOnce_aboutTwo {arguments : List String} (h : 0 < arguments.length) {b : String}
    (hb : fillOnce arguments ((place 1).chars ++ ['.']) = b.toList ++ ['.']) :
    fillOnce arguments (aboutTwo before between (placeholder 0) (placeholder 1)).toList =
      (aboutTwo before between arguments[0] b).toList := by
  have hfront : '\x7b' ∉ before.toList ++ ['\x27'] := by simpa using hbefore
  have hmiddle : '\x7b' ∉ '\x27' :: between.toList := by simpa using hbetween
  rw [toList_aboutTwo, toList_aboutTwo, toList_placeholder, toList_placeholder, fillOnce_of_notMem hfront,
    fillOnce_place h, fillOnce_of_notMem hmiddle, hb]

theorem fillAtOnce_aboutTwo (a b : String) :
    fillAtOnce (aboutTwo before between (placeholder 0) (placeholder 1)) [a, b] = aboutTwo before between a b := by
  have hb : fillOnce [a, b] ((place 1).chars ++ ['.']) = b.toList ++ ['.'] := by
    rw [fillOnce_place (by simp), fillOnce_eq_self (by decide)]
    rfl
  rw [fillAtOnce, fillOnce_aboutTwo hbefore hbetween (by simp) hb, String.ofList_toList]
  rfl

theorem replaceAll_aboutTwo (a b : String) :
    replaceAll (place 1).chars b.toList (aboutTwo before between a (placeholder 1)).toList =
      (aboutTwo before between (String.ofList (replaceAll (place 1).chars b.toList a.toList)) b).toList := by
  have hfront : (place 1).sign ∉ before.toList ++ ['\x27'] := by simpa [place] using hbefore
  have hmiddle : (place 1).sign ∉ '\x27' :: between.toList := by simpa [place] using hbetween
  have hend : replaceAll (place 1).chars b.toList ['.'] = ['.'] :=
    Mark.replaceAll_of_occurrences (by decide)
  -- No place begins in the first argument and ends after the quote.
  rw [toList_aboutTwo, toList_aboutTwo, Mark.replaceAll_of_notMem hfront, List.cons_append,
    Mark.replaceAll_append_cons (by decide), ← List.cons_append, Mark.replaceAll_of_notMem hmiddle,
    toList_placeholder, Mark.replaceAll_append, hend, String.toList_ofList]

/-- **The second argument is put into the first one as well,** wherever there is a place for it. -/
theorem fill_aboutTwo (a b : String) :
    fill (aboutTwo before between (placeholder 0) (placeholder 1)) [a, b] =
      aboutTwo before between (String.ofList (replaceAll (place 1).chars b.toList a.toList)) b := by
  -- With one argument, the second place is passed over.
  have hplace : fillOnce [a] ((place 1).chars ++ ['.']) = (placeholder 1).toList ++ ['.'] := by
    rw [fillOnce_place_of_le (by simp), fillOnce_eq_self (by decide), toList_placeholder]
  have hfirst : fill (aboutTwo before between (placeholder 0) (placeholder 1)) [a] =
      aboutTwo before between a (placeholder 1) := by
    rw [fill_singleton, fillAtOnce, fillOnce_aboutTwo hbefore hbetween (by simp) hplace, String.ofList_toList]
    rfl
  rw [fill_pair, hfirst, toList_placeholder, replaceAll_aboutTwo hbefore hbetween, String.ofList_toList]

/-- Such a message is filled at once if and only if there is no place for the second argument in the first
one, or the second argument is just that place. -/
theorem fill_aboutTwo_eq_iff (a b : String) :
    fill (aboutTwo before between (placeholder 0) (placeholder 1)) [a, b] = aboutTwo before between a b ↔
      b = placeholder 1 ∨ places 1 a = 0 := by
  have hself : replaceAll (place 1).chars b.toList a.toList = a.toList ↔
      b.toList = (place 1).chars ∨ occurrences (place 1).chars a.toList = 0 := (Mark.Fills.done _).replaceAll_eq_iff
  rw [fill_aboutTwo hbefore hbetween, ← String.toList_inj, toList_aboutTwo, toList_aboutTwo, List.append_cancel_left_eq,
    List.append_cancel_right_eq, String.toList_ofList, hself, ← toList_placeholder, String.toList_inj]
  rfl

end AboutTwo

/-- The templates of the messages about two things. -/
theorem Message.templates_aboutTwo :
    cannotRead.template = aboutTwo "Cannot read file " ": " (placeholder 0) (placeholder 1) ∧
      cannotWrite.template = aboutTwo "Cannot write file " ": " (placeholder 0) (placeholder 1) ∧
      toolFailed.template = aboutTwo "External tool " " failed: " (placeholder 0) (placeholder 1) := by
  decide +kernel

/-! ### The whole account -/

/-- **When arguments are filled in at once.** The first arguments of a list, however many, are filled in at
once if and only if each argument finds just the places that the template has for it, or is such a place
itself. So one argument always is, and the second of two is if it finds no place that the first one brings
in or completes. In the messages about a path or a tool and a reason, this is up to the path or the tool. -/
theorem fill_at_once_iff (template : String) (arguments : List String) :
    ((∀ n ≤ arguments.length,
        fill template (arguments.take n) = fillAtOnce template (arguments.take n)) ↔
      ∀ n (h : n < arguments.length), arguments[n] = placeholder n ∨
        places n (fillAtOnce template (arguments.take n)) = places n template) ∧
    (∀ a, fill template [a] = fillAtOnce template [a]) ∧
    (∀ a b, fill template [a, b] = fillAtOnce template [a, b] ↔
      b = placeholder 1 ∨ places 1 (fillAtOnce template [a]) = places 1 template) ∧
    ∀ m ∈ [Message.cannotRead, Message.cannotWrite, Message.toolFailed], ∀ a b,
      fill m.template [a, b] = fillAtOnce m.template [a, b] ↔ b = placeholder 1 ∨ places 1 a = 0 := by
  refine ⟨fill_take_eq_iff template arguments, fill_singleton template,
    fun a b => fill_concat_eq_iff (fill_singleton template a) b, ?_⟩
  obtain ⟨hread, hwrite, htool⟩ := Message.templates_aboutTwo
  have hmessage {before between : String} (hbefore : '\x7b' ∉ before.toList)
      (hbetween : '\x7b' ∉ between.toList) {t : String}
      (ht : t = aboutTwo before between (placeholder 0) (placeholder 1)) (a b : String) :
      fill t [a, b] = fillAtOnce t [a, b] ↔ b = placeholder 1 ∨ places 1 a = 0 := by
    rw [ht, fillAtOnce_aboutTwo hbefore hbetween]
    exact fill_aboutTwo_eq_iff hbefore hbetween a b
  simp only [List.forall_mem_cons, List.not_mem_nil, false_implies, implies_true, and_true]
  exact ⟨hmessage (by decide) (by decide) hread, hmessage (by decide) (by decide) hwrite,
    hmessage (by decide) (by decide) htool⟩

/-- A path with a place in it is taken for a template, and so is a place that is put together. -/
example :
    fill Message.cannotRead.template ["\x7b1\x7d.st", "gone"] = "Cannot read file 'gone.st': gone." ∧
      fillAtOnce Message.cannotRead.template ["\x7b1\x7d.st", "gone"] =
        "Cannot read file '\x7b1\x7d.st': gone." ∧
      fill "\x7b\x7b0\x7d\x7d" ["1", "gone"] = "gone" ∧
      fillAtOnce "\x7b\x7b0\x7d\x7d" ["1", "gone"] = "\x7b1\x7d" := by
  decide +kernel

end Story
