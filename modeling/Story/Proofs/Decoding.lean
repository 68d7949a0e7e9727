import Mathlib.Algebra.Order.Group.Nat
import Mathlib.Data.List.Basic
import Story.SourceMap.Basic

/-!
# Reading source maps back

A source map puts its mappings in order and hands them to a writer. All that is asked of the writer is that it
writes the mappings that it is given, each of them, as segments in the standard encoding
(`MapWriter.WritesSegments`). Here is the other direction: `SourceMap.decode` reads such a text by the rules of
the format, and what it reads is compared with the mappings that were added (`SourceMap.writtenBy_decodes`).

There is one segment for each place of the script that a mapping was added for, in the order of the places,
and it is the mapping that was added first there.

* `numbers_difference` — a difference is read back as it was written;
* `segmentOf_numbers` — so is a segment, given the same trail;
* `decodeFrom_encodeFrom` — the whole text, by induction over the segments. The reader is always one
  segment behind: the characters of the last one are pending until a divider or the end of the text;
* `find?_mergeSort` — sorting keeps the order of the mappings at one place, so the first one stays the first;
* `MapWriter.json_writesSegments` — the writer for JSON does what is asked, unless a mapping refers to a name that
  the map does not have.
-/

namespace Story

namespace SourceMap

/-! ### The reader -/

/-- The place of a segment comes before that of another one. -/
def Segment.Before (s t : Segment) : Prop := s.line < t.line ∨ s.line = t.line ∧ s.column < t.column

/-- The value of a digit of base 64. -/
def digitValue? (c : Char) : Option Nat :=
  if 'A' ≤ c ∧ c ≤ 'Z' then some (c.toNat - 65)
  else if 'a' ≤ c ∧ c ≤ 'z' then some (c.toNat - 71)
  else if '0' ≤ c ∧ c ≤ '9' then some (c.toNat + 4)
  else if c = '+' then some 62
  else if c = '/' then some 63
  else none

/-- The lowest bit is the sign. -/
def signed (n : Nat) : Int := if n % 2 = 1 then -((n / 2 : Nat) : Int) else (n / 2 : Nat)

/-- The numbers that digits give. Of the first one, lower digits have been read: they are worth `value`,
and the next digit counts `scale` times. -/
def numbersFrom (value scale : Nat) : List Char → Option (List Int)
  | [] => if scale = 1 then some [] else none
  | c :: cs => do
    let digit ← digitValue? c
    if digit < 32 then (numbersFrom 0 1 cs).map (signed (value + scale * digit) :: ·)
    else numbersFrom (value + scale * (digit - 32)) (scale * 32) cs

/-- The natural number at a difference to another one. -/
def moved (old : Nat) (difference : Int) : Option Nat := ((old : Int) + difference).toNat?

/-- A segment on a line, and the trail after it. There are one, four or five numbers. -/
def segmentOf (line column : Nat) (trail : Trail) (text : List Char) : Option (Segment × Trail) := do
  match ← numbersFrom 0 1 text with
  | [c] => return (⟨line, ← moved column c, none⟩, trail)
  | [c, s, l, k] =>
    let source ← moved trail.source s
    let sourceLine ← moved trail.line l
    let sourceColumn ← moved trail.column k
    return (⟨line, ← moved column c, some ⟨source, sourceLine, sourceColumn, none⟩⟩,
      ⟨source, sourceLine, sourceColumn, trail.name⟩)
  | [c, s, l, k, n] =>
    let source ← moved trail.source s
    let sourceLine ← moved trail.line l
    let sourceColumn ← moved trail.column k
    let name ← moved trail.name n
    return (⟨line, ← moved column c, some ⟨source, sourceLine, sourceColumn, some name⟩⟩,
      ⟨source, sourceLine, sourceColumn, name⟩)
  | _ => none

/-- The end of a segment: what it says, if there is anything in it, and the column and the trail after it.
-/
def endSegment (line column : Nat) (trail : Trail) (pending : List Char) :
    Option (List Segment × Nat × Trail) := do
  if pending.isEmpty then return ([], column, trail)
  let (segment, after) ← segmentOf line column trail pending
  return ([segment], segment.column, after)

/-- The segments of a text, of which the first one starts with what is `pending`. A semicolon starts a new
line, and columns start from zero there. -/
def decodeFrom (line column : Nat) (trail : Trail) (pending : List Char) :
    List Char → Option (List Segment)
  | [] => do return (← endSegment line column trail pending).1
  | c :: cs =>
    if c = ';' then do
      let (done, _, after) ← endSegment line column trail pending
      (decodeFrom (line + 1) 0 after [] cs).map (done ++ ·)
    else if c = ',' then do
      let (done, next, after) ← endSegment line column trail pending
      (decodeFrom line next after [] cs).map (done ++ ·)
    else decodeFrom line column trail (pending ++ [c]) cs

/-- The segments of a text. -/
def decode (text : String) : Option (List Segment) := decodeFrom 0 0 .initial [] text.toList

/-! ### Numbers -/

theorem digitValue?_base64Digit : ∀ n < 64, digitValue? (base64Digit n) = some n := by
  decide +kernel

/-- Digits are neither dividers nor anything that has to be escaped. -/
theorem base64Digit_plain : ∀ n < 64, base64Digit n ≠ ';' ∧ base64Digit n ≠ ',' ∧
    Json.writeChar (base64Digit n) = [base64Digit n] := by
  decide +kernel

theorem vlqNat_plain (n : Nat) :
    ∀ c ∈ vlqNat n, c ≠ ';' ∧ c ≠ ',' ∧ Json.writeChar c = [c] := by
  fun_induction vlqNat n with
  | case1 n h => exact List.forall_mem_singleton.mpr (base64Digit_plain n (by omega))
  | case2 n h ih => exact List.forall_mem_cons.mpr ⟨base64Digit_plain _ (by omega), ih⟩

theorem vlqNat_ne_nil (n : Nat) : vlqNat n ≠ [] := by
  unfold vlqNat
  split <;> exact List.cons_ne_nil _ _

theorem signed_foldSign (i : Int) : signed (foldSign i) = i := by
  unfold signed foldSign
  split <;> split <;> omega

/-- A number is read back, whatever lower digits there are. -/
theorem numbersFrom_vlqNat (n value scale : Nat) (cs : List Char) :
    numbersFrom value scale (vlqNat n ++ cs) =
      (numbersFrom 0 1 cs).map (signed (value + scale * n) :: ·) := by
  fun_induction vlqNat n generalizing value scale with
  | case1 n h => simp [numbersFrom, digitValue?_base64Digit n (by omega), h]
  | case2 n h ih =>
    -- The low digit goes in with its scale; the number that is left counts thirty-two times as much.
    have hdigit := digitValue?_base64Digit (n % 32 + 32) (by omega)
    have hvalue : value + scale * (n % 32) + scale * 32 * (n / 32) = value + scale * n := by
      rw [Nat.mul_assoc, Nat.add_assoc, ← Nat.mul_add, Nat.mod_add_div]
    have hmore : ¬ n % 32 + 32 < 32 := by omega
    simp [numbersFrom, hdigit, hmore, ih, hvalue]

/-- **A difference is read back.** -/
theorem numbers_difference (new old : Nat) (cs : List Char) :
    numbersFrom 0 1 (vlqDifference new old ++ cs) =
      (numbersFrom 0 1 cs).map (((new : Int) - old) :: ·) := by
  rw [vlqDifference, numbersFrom_vlqNat, Nat.zero_add, Nat.one_mul, signed_foldSign]

theorem moved_sub (old new : Nat) : moved old ((new : Int) - old) = some new := by
  rw [moved, show (old : Int) + (new - old) = new by omega]
  rfl

/-! ### Segments -/

/-- A segment has characters, all of them digits. -/
theorem numbers_plain (column : Nat) (trail : Trail) (s : Segment) :
    (s.numbers column trail).1 ≠ [] ∧
      ∀ c ∈ (s.numbers column trail).1, c ≠ ';' ∧ c ≠ ',' ∧ Json.writeChar c = [c] := by
  -- Every difference is written in digits only.
  have hdifference (new old : Nat) : ∀ c ∈ vlqDifference new old, c ≠ ';' ∧ c ≠ ',' ∧ Json.writeChar c = [c] :=
    vlqNat_plain _
  have hfirst : vlqDifference s.column column ≠ [] := vlqNat_ne_nil _
  unfold Segment.numbers
  split
  · exact ⟨hfirst, hdifference _ _⟩
  · next o _ =>
    have hfour := List.forall_mem_append.mpr ⟨List.forall_mem_append.mpr
      ⟨List.forall_mem_append.mpr ⟨hdifference s.column column, hdifference o.source trail.source⟩,
        hdifference o.line trail.line⟩, hdifference o.column trail.column⟩
    split
    · exact ⟨by simp [hfirst], hfour⟩
    · exact ⟨by simp [hfirst], List.forall_mem_append.mpr ⟨hfour, hdifference _ _⟩⟩

/-- **A segment is read back,** and leaves the trail that it was written with. -/
theorem segmentOf_numbers (column : Nat) (trail : Trail) (s : Segment) :
    segmentOf s.line column trail (s.numbers column trail).1 = some (s, (s.numbers column trail).2) := by
  have hone (new old : Nat) : numbersFrom 0 1 (vlqDifference new old) = some [(new : Int) - old] := by
    rw [← List.append_nil (vlqDifference new old), numbers_difference]
    rfl
  -- Without a source there is one number, and otherwise there are four or five.
  obtain ⟨line, own, _ | ⟨source, sourceLine, sourceColumn, _ | name⟩⟩ := s <;>
    simp [Segment.numbers, segmentOf, numbers_difference, hone, moved_sub]

theorem endSegment_numbers (column : Nat) (trail : Trail) (s : Segment) :
    endSegment s.line column trail (s.numbers column trail).1 =
      some ([s], s.column, (s.numbers column trail).2) := by
  have hne := (numbers_plain column trail s).1
  simp [endSegment, hne, segmentOf_numbers]

/-! ### The whole text -/

/-- Characters that are no dividers belong to the segment. -/
theorem decodeFrom_plain {xs : List Char} (hxs : ∀ c ∈ xs, c ≠ ';' ∧ c ≠ ',') (line column : Nat)
    (trail : Trail) (pending cs : List Char) :
    decodeFrom line column trail pending (xs ++ cs) =
      decodeFrom line column trail (pending ++ xs) cs := by
  induction xs generalizing pending with
  | nil => rw [List.nil_append, List.append_nil]
  | cons x xs ih =>
    -- The character divides nothing, so it goes to the segment that is being read.
    obtain ⟨⟨hsemicolon, hcomma⟩, hxs⟩ := List.forall_mem_cons.mp hxs
    rw [List.cons_append, decodeFrom, if_neg hsemicolon, if_neg hcomma, ih hxs, List.append_assoc]
    rfl

section Dividers

variable {line column next : Nat} {trail after : Trail} {pending : List Char} {done : List Segment}

/-- A comma ends a segment. -/
theorem decodeFrom_comma (hdone : endSegment line column trail pending = some (done, next, after))
    (cs : List Char) :
    decodeFrom line column trail pending (',' :: cs) =
      (decodeFrom line next after [] cs).map (done ++ ·) := by
  rw [decodeFrom, if_neg (by decide), if_pos rfl, hdone]
  rfl

/-- A semicolon ends a segment and the line. -/
theorem decodeFrom_semicolon (hdone : endSegment line column trail pending = some (done, next, after))
    (cs : List Char) :
    decodeFrom line column trail pending (';' :: cs) =
      (decodeFrom (line + 1) 0 after [] cs).map (done ++ ·) := by
  rw [decodeFrom, if_pos rfl, hdone]
  rfl

/-- Semicolons with nothing before them are empty lines. -/
theorem decodeFrom_emptyLines (n line : Nat) (trail : Trail) (cs : List Char) :
    decodeFrom line 0 trail [] (List.replicate n ';' ++ cs) = decodeFrom (line + n) 0 trail [] cs := by
  induction n generalizing line with
  | zero => rfl
  | succ n ih =>
    have hnothing : endSegment line 0 trail [] = some ([], 0, trail) := rfl
    rw [List.replicate_succ, List.cons_append, decodeFrom_semicolon hnothing, ih, Nat.add_assoc,
      Nat.add_comm 1]
    simp

end Dividers

/-- **The text of segments is read back.** Before it there was a segment, whose characters are pending; it
says `done`, and the next one is written after the column and with the trail that it leaves. -/
theorem decodeFrom_encodeFrom {line column before : Nat} {trail earlier : Trail} {isFirst : Bool}
    {pending : List Char} {done ss : List Segment} (hss : ss.Pairwise Segment.Before)
    (hline : ∀ s ∈ ss, line ≤ s.line) (hfirst : isFirst = true → pending = [])
    (hdone : endSegment line before earlier pending = some (done, column, trail)) :
    decodeFrom line before earlier pending (encodeFrom line column isFirst trail ss) = some (done ++ ss) := by
  induction ss generalizing line column before trail earlier isFirst pending done with
  | nil => simp [encodeFrom, decodeFrom, hdone]
  | cons s ss ih =>
    obtain ⟨hbefore, hss⟩ := List.pairwise_cons.mp hss
    obtain ⟨hs, -⟩ := List.forall_mem_cons.mp hline
    have hlater : ∀ x ∈ ss, s.line ≤ x.line := fun x hx => by
      obtain h | ⟨h, -⟩ := hbefore x hx
      · exact h.le
      · exact h.le
    -- After the divider the segment itself is pending, and the others follow.
    have hrest (start : Nat) : decodeFrom s.line start trail [] ((s.numbers start trail).1 ++
        encodeFrom s.line s.column false (s.numbers start trail).2 ss) = some (s :: ss) := by
      have hplain := (numbers_plain start trail s).2
      rw [decodeFrom_plain fun c hc => ⟨(hplain c hc).1, (hplain c hc).2.1⟩, List.nil_append]
      exact ih hss hlater Bool.noConfusion (endSegment_numbers start trail s)
    rw [encodeFrom, Segment.divider]
    obtain rfl | hlt := hs.eq_or_lt
    · cases isFirst with
      | true =>
        obtain rfl := hfirst rfl
        cases hdone
        simpa using hrest column
      | false =>
        simp only [ne_eq, not_true_eq_false, if_false, if_true, Bool.false_eq_true, List.cons_append,
          List.nil_append]
        rw [decodeFrom_comma hdone, hrest]
        rfl
    · obtain ⟨n, hn⟩ : ∃ n, s.line = line + (n + 1) := ⟨s.line - line - 1, by omega⟩
      have hsub : s.line - line = n + 1 := by omega
      simp only [ne_eq, hlt.ne', not_false_eq_true, if_false, if_true, List.append_assoc, hsub,
        List.replicate_succ, List.cons_append]
      rw [decodeFrom_semicolon hdone, decodeFrom_emptyLines, Nat.add_assoc, Nat.add_comm 1, ← hn, hrest]
      rfl

/-- **What is encoded is decoded.** -/
theorem decode_encode {ss : List Segment} (hss : ss.Pairwise Segment.Before) : decode (encode ss) = some ss := by
  rw [decode, encode, String.toList_ofList]
  exact decodeFrom_encodeFrom hss (fun _ _ => Nat.zero_le _) (fun _ => rfl) rfl

/-! ### The first mapping at each place -/

/-- The place of a mapping comes before that of another one. -/
def ComesBefore (a b : Mapping) : Prop := a.segment.Before b.segment

/-- Whether a mapping is at the place of another one. -/
abbrev isAt (x : Mapping) (y : Mapping) : Bool := y.generated = x.generated

theorem precedes_trans (a b c : Mapping) (hab : precedes a b = true) (hbc : precedes b c = true) :
    precedes a c = true := by
  simp only [precedes, Bool.or_eq_true, Bool.and_eq_true, decide_eq_true_eq] at *
  omega

theorem precedes_total (a b : Mapping) : (precedes a b || precedes b a) = true := by
  simp only [precedes, Bool.or_eq_true, Bool.and_eq_true, decide_eq_true_eq]
  omega

/-- Of two mappings one comes before the other, or both are at one place. -/
theorem precedes_iff {a b : Mapping} :
    precedes a b = true ↔ ComesBefore a b ∨ a.generated = b.generated := by
  simp only [precedes, ComesBefore, Segment.Before, Mapping.segment, Mapping.generated, Bool.or_eq_true, Bool.and_eq_true, decide_eq_true_eq,
    Prod.mk.injEq]
  omega

theorem ComesBefore.generated_ne {a b : Mapping} (h : ComesBefore a b) : a.generated ≠ b.generated := by
  simp only [ComesBefore, Segment.Before, Mapping.segment, Mapping.generated, ne_eq, Prod.mk.injEq] at *
  omega

theorem ComesBefore.trans {a b c : Mapping} (hab : ComesBefore a b) (hbc : ComesBefore b c) :
    ComesBefore a c := by
  simp only [ComesBefore, Segment.Before] at *
  omega

/-- **Sorting keeps the first one first.** Mappings at one place stay in the order of adding. -/
theorem find?_mergeSort (ms : List Mapping) (x : Mapping) :
    (ms.mergeSort precedes).find? (isAt x) = ms.find? (isAt x) := by
  -- Mappings at one place are in order already, so sorting does not move them past each other.
  have hpairwise : (ms.filter (isAt x)).Pairwise fun a b => precedes a b = true := by
    refine List.pairwise_of_forall_mem_list fun a ha b hb => precedes_iff.mpr (.inr ?_)
    have ha := of_decide_eq_true (List.mem_filter.mp ha).2
    have hb := of_decide_eq_true (List.mem_filter.mp hb).2
    exact ha.trans hb.symm
  have hsublist := (List.sublist_mergeSort precedes_trans precedes_total hpairwise
    (List.filter_sublist)).filter (isAt x)
  simp only [List.filter_filter, Bool.and_self] at hsublist
  have hlength := ((List.mergeSort_perm ms precedes).filter (isAt x)).length_eq
  rw [← List.head?_filter, ← List.head?_filter, hsublist.eq_of_length hlength.symm]

/-- Of sorted mappings, those that are first at their places remain, each before the next. -/
theorem firstOfEach_spec {ms : List Mapping} (hms : ms.Pairwise fun a b => precedes a b = true) :
    (firstOfEach ms).head? = ms.head? ∧ (firstOfEach ms).Pairwise ComesBefore ∧
      ∀ x, x ∈ firstOfEach ms ↔ ms.find? (isAt x) = some x := by
  induction ms with
  | nil => exact ⟨rfl, .nil, by simp [firstOfEach]⟩
  | cons a ms ih =>
    obtain ⟨hfirst, hms⟩ := List.pairwise_cons.mp hms
    obtain ⟨hhead, hordered, hmem⟩ := ih hms
    have hfind (x : Mapping) : (a :: ms).find? (isAt x) = some x ↔
        x = a ∨ a.generated ≠ x.generated ∧ x ∈ firstOfEach ms := by
      rw [hmem, List.find?_cons]
      by_cases hx : a.generated = x.generated
      · have ha : isAt x a = true := decide_eq_true hx
        simp [ha, hx, eq_comm]
      · have ha : isAt x a = false := decide_eq_false hx
        have hne : x ≠ a := fun h => hx (h ▸ rfl)
        simp [ha, hx, hne]
    rw [firstOfEach]
    cases hrest : firstOfEach ms with
    | nil => exact ⟨rfl, List.pairwise_singleton _ _, fun x => by simp [hfind, hrest]⟩
    | cons b bs =>
      rw [hrest] at hhead hordered hfind
      obtain ⟨hb, hbs⟩ := List.pairwise_cons.mp hordered
      have hab : precedes a b = true := hfirst b (List.mem_of_head? hhead.symm)
      by_cases hsame : a.generated = b.generated
      · -- The first of the others is at the place of `a`, and all that come after it are not.
        have hafter (x : Mapping) (hx : x ∈ bs) : ComesBefore a x := by
          have := hb x hx
          simp only [ComesBefore, Segment.Before, Mapping.segment, Mapping.generated, Prod.mk.injEq] at *
          omega
        dsimp only
        rw [if_pos hsame]
        refine ⟨rfl, List.pairwise_cons.mpr ⟨hafter, hbs⟩, fun x => ?_⟩
        rw [hfind, List.mem_cons, List.mem_cons]
        refine or_congr_right ⟨fun hx => ⟨(hafter x hx).generated_ne, .inr hx⟩, ?_⟩
        rintro ⟨hne, rfl | hx⟩
        · exact absurd hsame hne
        · exact hx
      · have hbefore : ComesBefore a b := (precedes_iff.mp hab).resolve_right hsame
        have hafter : ∀ x ∈ b :: bs, ComesBefore a x :=
          List.forall_mem_cons.mpr ⟨hbefore, fun x hx => hbefore.trans (hb x hx)⟩
        dsimp only
        rw [if_neg hsame]
        refine ⟨rfl, List.pairwise_cons.mpr ⟨hafter, hordered⟩, fun x => ?_⟩
        rw [hfind, List.mem_cons]
        exact or_congr_right ⟨fun hx => ⟨(hafter x hx).generated_ne, hx⟩, And.right⟩

/-- **What is written of the mappings:** for each place the one that was added first, in the order of the
places. -/
theorem ordered_spec (m : SourceMap) : m.ordered.Pairwise ComesBefore ∧
    ∀ x, x ∈ m.ordered ↔ m.mappings.find? (isAt x) = some x := by
  obtain ⟨-, hordered, hmem⟩ := firstOfEach_spec (List.pairwise_mergeSort precedes_trans precedes_total
    m.mappings)
  refine ⟨hordered, fun x => ?_⟩
  rw [← find?_mergeSort]
  exact hmem x

/-! ### Texts of segments -/

/-- Nothing in the text of segments has to be escaped. -/
theorem encodeFrom_plain {line column : Nat} {trail : Trail} {isFirst : Bool} {ss : List Segment} :
    ∀ c ∈ encodeFrom line column isFirst trail ss, Json.writeChar c = [c] := by
  induction ss generalizing line column trail isFirst with
  | nil => nofun
  | cons s ss ih =>
    have hdivider : ∀ c ∈ s.divider line isFirst, Json.writeChar c = [c] := by
      intro c hc
      unfold Segment.divider at hc
      split at hc
      · obtain ⟨-, rfl⟩ := List.mem_replicate.mp hc
        rfl
      · split at hc
        · cases hc
        · obtain rfl := List.mem_singleton.mp hc
          rfl
    have hsegment (start : Nat) := (numbers_plain start trail s).2
    exact List.forall_mem_append.mpr ⟨List.forall_mem_append.mpr ⟨hdivider,
      fun c hc => (hsegment _ c hc).2.2⟩, ih⟩

/-- The last member of an object stands at its end. -/
theorem writeObject_append (members : List (String × String)) (member : String × String)
    (key value : String) : ∃ head, Json.writeObject (members ++ [member, (key, value)]) =
      head ++ Json.writeText key ++ ":" ++ value ++ "\x7d" := by
  let written := (members ++ [member]).map fun member => Json.writeText member.1 ++ ":" ++ member.2
  have hne : written ≠ [] := by simp [written]
  refine ⟨"\x7b" ++ ",".intercalate written ++ ",", ?_⟩
  rw [Json.writeObject, List.append_cons, List.map_append]
  change "\x7b" ++ ",".intercalate (written ++ [Json.writeText key ++ ":" ++ value]) ++ "\x7d" = _
  rw [String.intercalate_append_of_ne_nil hne (List.cons_ne_nil _ _), String.intercalate_singleton]
  simp only [String.append_assoc]

/-- A text that needs no escaping. -/
theorem writeText_ofList {cs : List Char} (h : ∀ c ∈ cs, Json.writeChar c = [c]) :
    Json.writeText (String.ofList cs) = "\"" ++ String.ofList cs ++ "\"" := by
  rw [Json.writeText, String.toList_ofList, List.flatMap_congr h, List.flatMap_singleton']

end SourceMap

/-! ### Writers -/

namespace MapWriter

/-- **What is asked of a writer of source maps:** it writes the mappings that it is given as segments, in the
standard encoding and in the order in which it is given them, and leaves none out. -/
def WritesSegments (w : MapWriter) (m : SourceMap) : Prop :=
  ∃ head tail, w m = head ++ "\"mappings\":\"" ++ SourceMap.encode (m.mappings.map Mapping.segment) ++ "\"" ++ tail

/-- The writer for JSON does so if the map has the names that the mappings refer to. -/
theorem json_writesSegments {m : SourceMap}
    (h : ∀ x ∈ m.mappings, x.source ≠ some noSource ∧ ∀ name ∈ x.name, name < m.names.length) :
    json.WritesSegments m.finished := by
  have hknown : ∀ x ∈ m.ordered, (x.known m.names.length).segment = x.segment := by
    intro x hx
    obtain ⟨hsource, hname⟩ := h x (List.mem_of_find?_eq_some ((m.ordered_spec.2 x).mp hx))
    have hsource : x.source.filter (· ≠ noSource) = x.source := by
      cases hx : x.source with
      | none => rfl
      | some source =>
        have hne : source ≠ noSource := fun heq => hsource (heq ▸ hx)
        simp [hne]
    have hname : x.name.filter (· < m.names.length) = x.name := by
      cases hx : x.name with
      | none => rfl
      | some name =>
        have hlt : name < m.names.length := hname name hx
        simp [hlt]
    rw [Mapping.known, hsource, hname]
  -- The mappings are the last member of the object, and their text stands there as it is.
  obtain ⟨head, hjson⟩ : ∃ head, json m.finished = head ++ Json.writeText "mappings" ++ ":" ++
      Json.writeText (SourceMap.encode (m.ordered.map fun x => (x.known m.names.length).segment)) ++ "\x7d" :=
    SourceMap.writeObject_append _ _ _ _
  have hkey : Json.writeText "mappings" = "\"mappings\"" := by decide
  refine ⟨head, "\x7d", ?_⟩
  rw [hjson, List.map_congr_left hknown, SourceMap.encode, SourceMap.writeText_ofList SourceMap.encodeFrom_plain,
    hkey]
  simp only [String.append_assoc]
  rfl

end MapWriter

namespace SourceMap

/-- **A source map is read back.** Let the writer write the mappings that it is given as segments. Read by the
rules of the format, the text gives one segment for each place that a mapping was added for, in the order of the
places: the mapping that was added first there. If it has a source, the segment has all of it; if not, the segment
has its place only. -/
theorem writtenBy_decodes (w : MapWriter) (m : SourceMap) (hw : w.WritesSegments m.finished) :
    ∃ (head text tail : String) (read : List Segment),
      m.writtenBy w = head ++ "\"mappings\":\"" ++ text ++ "\"" ++ tail ∧
      '"' ∉ text.toList ∧ '\\' ∉ text.toList ∧
      decode text = some read ∧ read.Pairwise Segment.Before ∧
      ∀ s, s ∈ read ↔ ∃ x, m.mappings.find? (fun y => y.generated = x.generated) = some x ∧
        s = ⟨x.generatedLine, x.generatedColumn, x.source.map fun source =>
          ⟨source, x.sourceLine, x.sourceColumn, x.name⟩⟩ := by
  obtain ⟨head, tail, hwritten⟩ := hw
  obtain ⟨hordered, hmem⟩ := ordered_spec m
  have hplain (c : Char) (hc : Json.writeChar c ≠ [c]) :
      c ∉ (encode (m.ordered.map Mapping.segment)).toList := fun hmem => by
    rw [encode, String.toList_ofList] at hmem
    exact hc (encodeFrom_plain c hmem)
  have hbefore : (m.ordered.map Mapping.segment).Pairwise Segment.Before := hordered.map _ fun _ _ h => h
  refine ⟨head, _, tail, m.ordered.map Mapping.segment, hwritten, hplain _ (by decide), hplain _ (by decide),
    decode_encode hbefore, hbefore, fun s => ?_⟩
  rw [List.mem_map]
  exact exists_congr fun x => and_congr (hmem x) eq_comm

/-- Three mappings, added in the wrong order and two of them at one place, in JSON. -/
theorem writtenBy_decodes_json :
    let m : SourceMap := ⟨none, [⟨"s", none⟩], ["n"],
      [⟨1, 4, some 0, 2, 3, some 0⟩, ⟨0, 2, none, 0, 0, none⟩, ⟨1, 4, some 0, 7, 7, none⟩]⟩
    MapWriter.json.WritesSegments m.finished ∧ ∃ head text tail read,
      m.json = head ++ "\"mappings\":\"" ++ text ++ "\"" ++ tail ∧ decode text = some read ∧
      read.Pairwise Segment.Before ∧ ⟨1, 4, some ⟨0, 2, 3, some 0⟩⟩ ∈ read := by
  intro m
  have hwrites : MapWriter.json.WritesSegments m.finished := MapWriter.json_writesSegments (by decide)
  obtain ⟨head, text, tail, read, hjson, -, -, hread, hbefore, hmem⟩ := writtenBy_decodes .json m hwrites
  exact ⟨hwrites, head, text, tail, read, hjson, hread, hbefore, (hmem _).mpr ⟨⟨1, 4, some 0, 2, 3, some 0⟩, rfl, rfl⟩⟩

end SourceMap

end Story
