import Mathlib.Data.List.Basic
import Mathlib.Data.List.Induction
import Story.Path

/-!
# Paths in normal form

`Path.normalize` reads a path segment by segment and writes down where that leads. What it writes is told
here in two ways, by the path that was read and by the text alone.

* `Path.stretches` — what lies between the slashes of a text, by the library's `List.splitOn`. Reading a path
  means following these from its root on (`ofText_eq_follow`), one step after the other (`Path.go`);
* `Path.Normal` — no segment is empty or `.`, and `..` comes first if at all and never after a root. One step
  keeps this, whatever the segment is (`Normal.go`), so every path is read in normal form
  (`ofText_normal`), and following a normal form leads through all of it (`Normal.follow_self`);
* `Path.Canonical` — the same said of a text, as far as it can be seen there. A normal form is
  written canonically (`Normal.canonical`), and a canonical text is its own normal form
  (`Canonical.normalize_eq`).

The two do not fit together exactly: `./C:/x` is relative, but its normal form `C:/x` is read as rooted at a
drive. So a normal form that was written may be read as another one, and that a second pass changes nothing
(`normalize_canonical`) is shown for the texts and not for what is read.
-/

namespace Story

namespace Root

/-- A drive has a letter for its name. -/
def Proper (root : Root) : Prop := ∀ letter, root = .drive letter → letter.isAlpha = true

theorem Proper.ne_slash {letter : Char} (h : (drive letter).Proper) : letter ≠ '/' := by
  rintro rfl
  exact absurd (h '/' rfl) (by decide)

/-- What stands before the slash of a root. -/
def front : Root → List String
  | nowhere => []
  | slash => [""]
  | drive letter => [String.ofList [letter, ':']]

theorem front_ne_nil {root : Root} (h : root ≠ nowhere) : root.front ≠ [] := by
  cases root <;> simp_all [front]

theorem ne_up_of_mem_front {root : Root} {s : String} (h : s ∈ root.front) : s ≠ ".." := by
  cases root with
  | nowhere => cases h
  | slash => simp_all [front]
  | drive letter =>
    obtain rfl := List.mem_singleton.mp h
    exact fun heq => absurd (congrArg String.toList heq) (by simp)

end Root

namespace Path

/-! ### Between slashes -/

/-- What lies between the slashes of a text. -/
def stretches (cs : List Char) : List String := (cs.splitOn '/').map String.ofList

theorem splitSlashes_eq_splitOn (cs : List Char) : splitSlashes cs = cs.splitOn '/' := by
  induction cs with
  | nil => rfl
  | cons c cs ih =>
    rw [splitSlashes, List.splitOn_cons_eq_if_modifyHead, ih]
    by_cases hc : c = '/'
    · simp [hc]
    · rcases hcs : cs.splitOn '/' with _ | ⟨s, ss⟩
      · -- Even of an empty text there is one stretch.
        exact absurd hcs (List.splitOn_ne_nil _ _)
      · simp [hc]

theorem stretches_ne_nil (cs : List Char) : stretches cs ≠ [] := by simp [stretches]

@[simp] theorem stretches_nil : stretches [] = [""] := by simp [stretches]

theorem stretches_append_slash (cs cs' : List Char) :
    stretches (cs ++ '/' :: cs') = stretches cs ++ stretches cs' := by
  simp [stretches, List.splitOn_append_cons_self]

theorem stretches_slash (cs : List Char) : stretches ('/' :: cs) = "" :: stretches cs :=
  stretches_append_slash [] cs

theorem stretches_of_notMem {s : String} (h : '/' ∉ s.toList) : stretches s.toList = [s] := by
  simp [stretches, List.splitOn_eq_singleton h]

/-- Joining what lies between the slashes gives the text back. -/
theorem join_stretches (cs : List Char) : "/".intercalate (stretches cs) = String.ofList cs := by
  apply String.ext
  simp [stretches, List.map_map, Function.comp_def, List.intercalate_splitOn]

/-- Between the slashes of joined names lie the names. -/
theorem stretches_join {names : List String} (hne : names ≠ []) (h : ∀ s ∈ names, '/' ∉ s.toList) :
    stretches ("/".intercalate names).toList = names := by
  have hsplit : (['/'].intercalate (names.map String.toList)).splitOn '/' = names.map String.toList :=
    List.splitOn_intercalate '/' (by simpa using h) (by simpa using hne)
  simp [stretches, hsplit, List.map_map, Function.comp_def]

/-- There is no slash between slashes, and nothing that is not in the text. -/
theorem mem_stretches {cs : List Char} {s : String} (h : s ∈ stretches cs) :
    ∀ c ∈ s.toList, c ∈ cs ∧ c ≠ '/' := by
  -- A slash opens a new stretch; any other character goes with the first one.
  have hsplit : ∀ cs : List Char, ∀ s ∈ cs.splitOn '/', ∀ c ∈ s, c ∈ cs ∧ c ≠ '/' := by
    intro cs
    induction cs with
    | nil => simp
    | cons d cs ih =>
      rw [List.splitOn_cons_eq_if_modifyHead]
      obtain ⟨first, more, hcs⟩ := List.exists_cons_of_ne_nil (List.splitOn_ne_nil '/' cs)
      rw [hcs] at ih ⊢
      by_cases hd : d = '/'
      · simp only [hd, beq_self_eq_true, if_true]
        grind
      · simp only [beq_iff_eq, hd, if_false, List.modifyHead_cons]
        grind
  obtain ⟨s, hs, rfl⟩ := List.mem_map.mp h
  rw [String.toList_ofList]
  exact hsplit cs s hs

theorem unbroken_of_mem_stretches {cs : List Char} (hcs : '\\' ∉ cs) {s : String} (h : s ∈ stretches cs) :
    ∀ c ∈ s.toList, isSeparator c = false := by
  intro c hc
  obtain ⟨hmem, hslash⟩ := mem_stretches h c hc
  have hbackslash : c ≠ '\\' := by
    rintro rfl
    exact hcs hmem
  simp [isSeparator, hslash, hbackslash]

/-! ### Slashes and roots -/

theorem slashed_append (text text' : String) : slashed (text ++ text') = slashed text ++ slashed text' := by
  simp [slashed, String.ofList_append]

theorem backslash_notMem_slashed (text : String) : '\\' ∉ (slashed text).toList := by
  simp only [slashed, String.toList_ofList, List.mem_map, not_exists, not_and]
  intro c _ hc
  split at hc
  · cases hc
  · next h => exact h hc

theorem slashed_eq_self {text : String} (h : '\\' ∉ text.toList) : slashed text = text := by
  have hchars : text.toList.map (fun c => if c = '\\' then '/' else c) = text.toList.map id := by
    refine List.map_congr_left fun c hc => if_neg ?_
    rintro rfl
    exact h hc
  rw [slashed, hchars, List.map_id, String.ofList_toList]

/-- A text is its root and what comes after it, and a drive is named by a letter. -/
theorem splitRoot_spec (cs : List Char) :
    (splitRoot cs).1.text.toList ++ (splitRoot cs).2 = cs ∧ (splitRoot cs).1.Proper := by
  unfold splitRoot
  split
  · exact ⟨by simp [Root.text], by simp [Root.Proper]⟩
  · next c cs =>
    split
    · next hc =>
      refine ⟨by simp [Root.text], fun letter h => ?_⟩
      cases h
      exact hc
    · exact ⟨by simp [Root.text], by simp [Root.Proper]⟩
  · exact ⟨by simp [Root.text], by simp [Root.Proper]⟩

/-- The root of a text, told by its first character and the next two. -/
theorem splitRoot_cons (c : Char) (cs : List Char) :
    splitRoot (c :: cs) =
      if c = '/' then (.slash, cs)
      else if c.isAlpha = true ∧ [':', '/'] <+: cs then (.drive c, cs.drop 2) else (.nowhere, c :: cs) := by
  unfold splitRoot
  split
  · next heq =>
    cases heq
    rfl
  · next heq =>
    cases heq
    by_cases hc : c = '/'
    · simp_all
    · simp [hc]
  · next hslash hdrive =>
    have hc : c ≠ '/' := by
      rintro rfl
      exact hslash cs rfl
    -- Neither of the two patterns fits, so there is no root.
    have hcs : ¬[':', '/'] <+: cs := by
      rintro ⟨rest, rfl⟩
      exact hdrive c rest rfl
    rw [if_neg hc, if_neg fun h => hcs h.2]

/-- A root is found again in front of any text. -/
theorem splitRoot_append {root : Root} (hroot : root ≠ .nowhere) (hproper : root.Proper) (rest : List Char) :
    splitRoot (root.text.toList ++ rest) = (root, rest) := by
  cases root with
  | nowhere => exact absurd rfl hroot
  | slash => rfl
  | drive letter =>
    have hletter : letter.isAlpha = true := hproper letter rfl
    have htext : (Root.drive letter).text.toList ++ rest = letter :: ([':', '/'] ++ rest) := by simp [Root.text]
    rw [htext, splitRoot_cons, if_neg hproper.ne_slash, if_pos ⟨hletter, List.prefix_append _ _⟩]
    rfl

theorem stretches_root_append {root : Root} (hproper : root.Proper) (rest : List Char) :
    stretches (root.text.toList ++ rest) = root.front ++ stretches rest := by
  cases root with
  | nowhere => rfl
  | slash => exact stretches_slash rest
  | drive letter =>
    -- The name of a drive has no slash, so it is a stretch of its own.
    have hname : '/' ∉ (String.ofList [letter, ':']).toList := by
      intro h
      have hslash : letter = '/' := by simpa [eq_comm] using h
      exact hproper.ne_slash hslash
    have htext : (Root.drive letter).text.toList ++ rest =
        (String.ofList [letter, ':']).toList ++ '/' :: rest := by simp [Root.text]
    rw [htext, stretches_append_slash, stretches_of_notMem hname]
    rfl

/-! ### Going along a path -/

/-- A path that goes on from `p` by more names. -/
def below (p : Path) (names : List String) : Path := { p with segments := p.segments ++ names }

/-- Go on by one segment. -/
def go (p : Path) (segment : String) : Path :=
  { p with segments := (enter p.root p.segments.reverse segment).reverse }

/-- Go on by one segment after the other. -/
def follow (p : Path) (names : List String) : Path := names.foldl go p

@[simp] theorem follow_nil (p : Path) : p.follow [] = p := rfl

@[simp] theorem follow_cons (p : Path) (name : String) (names : List String) :
    p.follow (name :: names) = (p.go name).follow names := rfl

theorem follow_append (p : Path) (names names' : List String) :
    p.follow (names ++ names') = (p.follow names).follow names' := List.foldl_append

theorem root_follow (p : Path) (names : List String) : (p.follow names).root = p.root := by
  induction names generalizing p with
  | nil => rfl
  | cons name names ih => exact ih (p.go name)

/-- A path is read by following what lies between its slashes, from its root on. -/
theorem ofText_eq_follow (text : String) :
    ofText text = (⟨(splitRoot (slashed text).toList).1, []⟩ : Path).follow
      (stretches (splitRoot (slashed text).toList).2) := by
  -- The segments are kept last one first while they are read.
  have hfold (names : List String) (p : Path) :
      p.follow names = ⟨p.root, (names.foldl (enter p.root) p.segments.reverse).reverse⟩ := by
    induction names generalizing p with
    | nil => simp
    | cons name names ih => simp [ih, go]
  rw [hfold, stretches, ← splitSlashes_eq_splitOn]
  rfl

/-- The root of a path is the one that is seen in its text. -/
theorem root_ofText (text : String) : (ofText text).root = (splitRoot (slashed text).toList).1 := by
  rw [ofText_eq_follow, root_follow]

theorem go_here (p : Path) {s : String} (h : s = "" ∨ s = ".") : p.go s = p := by
  simp [go, enter, h]

theorem go_name (p : Path) {s : String} (hs : s ≠ "") (hhere : s ≠ ".") (hup : s ≠ "..") :
    p.go s = p.below [s] := by
  simp [go, enter, hs, hhere, hup, below]

theorem go_up (root : Root) (segments : List String) {last : String} (hlast : last ≠ "..") :
    (⟨root, segments ++ [last]⟩ : Path).go ".." = ⟨root, segments⟩ := by
  simp [go, enter, hlast]

/-- Where no name is left to leave, `..` leads out of a relative path, and from a root it leads nowhere. -/
theorem go_out {root : Root} {segments : List String} (h : ∀ last ∈ segments.getLast?, last = "..") :
    (⟨root, segments⟩ : Path).go ".." =
      if root = .nowhere then ⟨root, segments ++ [".."]⟩ else ⟨root, segments⟩ := by
  obtain rfl | ⟨before, last, rfl⟩ := List.eq_nil_or_concat' segments
  · by_cases hroot : root = .nowhere <;> simp [go, enter, hroot]
  · obtain rfl : last = ".." := h last (by simp)
    by_cases hroot : root = .nowhere <;> simp [go, enter, hroot]

/-! ### Normal form -/

/-- What may stand between the slashes of a normal form. -/
structure IsSegment (s : String) : Prop where
  nonempty : s ≠ ""
  notHere : s ≠ "."
  unbroken : ∀ c ∈ s.toList, isSeparator c = false

theorem IsSegment.slash_notMem {s : String} (h : IsSegment s) : '/' ∉ s.toList :=
  fun hc => absurd (h.unbroken _ hc) (by decide)

theorem IsSegment.backslash_notMem {s : String} (h : IsSegment s) : '\\' ∉ s.toList :=
  fun hc => absurd (h.unbroken _ hc) (by decide)

/-- **Normal form:** `..` comes first if at all, and never after a root. -/
structure Normal (p : Path) : Prop where
  proper : p.root.Proper
  segment : ∀ s ∈ p.segments, IsSegment s
  climbs : p.segments.Pairwise fun s s' => s' = ".." → s = ".."
  rooted : p.root ≠ .nowhere → ".." ∉ p.segments

namespace Normal

variable {root : Root} {segments : List String} {p : Path} {s : String}

theorem start (h : root.Proper) : Normal ⟨root, []⟩ := ⟨h, by simp, .nil, by simp⟩

theorem of_append {more : List String} (h : Normal ⟨root, segments ++ more⟩) : Normal ⟨root, segments⟩ where
  proper := h.proper
  segment s hs := h.segment s (List.mem_append_left _ hs)
  climbs := (List.pairwise_append.mp h.climbs).1
  rooted hroot hup := h.rooted hroot (List.mem_append_left _ hup)

/-- A normal form that ends in `..` leads out and nowhere else. -/
theorem eq_up (h : Normal ⟨root, segments⟩) (hlast : ∀ last ∈ segments.getLast?, last = "..") :
    ∀ s ∈ segments, s = ".." := by
  obtain rfl | ⟨before, last, rfl⟩ := List.eq_nil_or_concat' segments
  · simp
  -- Before a segment that leads out there are only such segments.
  obtain rfl : last = ".." := hlast last (by simp)
  have hbefore := (List.pairwise_append.mp h.climbs).2.2
  intro s hs
  obtain hs | hs := List.mem_append.mp hs
  · exact hbefore s hs ".." (List.mem_singleton_self _) rfl
  · exact List.mem_singleton.mp hs

theorem concat (h : Normal ⟨root, segments⟩) (hs : IsSegment s)
    (hup : s = ".." → root = .nowhere ∧ ∀ s' ∈ segments, s' = "..") : Normal ⟨root, segments ++ [s]⟩ where
  proper := h.proper
  segment := List.forall_mem_append.mpr ⟨h.segment, List.forall_mem_singleton.mpr hs⟩
  climbs := by
    refine List.pairwise_append.mpr ⟨h.climbs, List.pairwise_singleton _ _, fun s' hs' t ht heq => ?_⟩
    exact (hup ((List.mem_singleton.mp ht).symm.trans heq)).2 s' hs'
  rooted hroot hmem := by
    obtain hmem | hmem := List.mem_append.mp hmem
    · exact h.rooted hroot hmem
    · exact hroot (hup (List.mem_singleton.mp hmem).symm).1

/-- **One segment keeps the normal form,** whatever it is. -/
theorem go (h : Normal p) (hs : ∀ c ∈ s.toList, isSeparator c = false) : Normal (p.go s) := by
  obtain ⟨root, segments⟩ := p
  by_cases hhere : s = "" ∨ s = "."
  · rw [go_here _ hhere]
    exact h
  have hsegment : IsSegment s := ⟨fun h => hhere (.inl h), fun h => hhere (.inr h), hs⟩
  by_cases hup : s = ".."
  · subst hup
    by_cases hlast : ∀ last ∈ segments.getLast?, last = ".."
    · rw [go_out hlast]
      split
      · next hroot => exact h.concat hsegment fun _ => ⟨hroot, h.eq_up hlast⟩
      · exact h
    · -- There is a name to leave.
      obtain rfl | ⟨before, last, rfl⟩ := List.eq_nil_or_concat' segments
      · exact absurd (by simp) hlast
      · rw [go_up root before (by simpa using hlast)]
        exact h.of_append
  · rw [go_name _ hsegment.nonempty hsegment.notHere hup]
    exact h.concat hsegment fun h => absurd h hup

/-- So do segments one after the other. -/
theorem follow {names : List String} (h : Normal p)
    (hnames : ∀ s ∈ names, ∀ c ∈ s.toList, isSeparator c = false) : Normal (p.follow names) := by
  induction names generalizing p with
  | nil => exact h
  | cons name names ih =>
    obtain ⟨hname, hnames⟩ := List.forall_mem_cons.mp hnames
    exact ih (h.go hname) hnames

/-- Following a normal form from its root leads through all of it. -/
theorem follow_self (h : Normal ⟨root, segments⟩) : (⟨root, []⟩ : Path).follow segments = ⟨root, segments⟩ := by
  induction segments using List.reverseRecOn with
  | nil => rfl
  | append_singleton before s ih =>
    have hs : IsSegment s := h.segment s (by simp)
    rw [follow_append, ih h.of_append, follow_cons, follow_nil]
    by_cases hup : s = ".."
    · -- Before `..` there is nothing but `..`, so it is no name that is left.
      subst hup
      have hroot : root = .nowhere := by
        by_contra hroot
        exact h.rooted hroot (by simp)
      have hbefore : ∀ s ∈ before, s = ".." := fun s hs =>
        (List.pairwise_append.mp h.climbs).2.2 s hs ".." (List.mem_singleton_self _) rfl
      rw [go_out fun last hlast => hbefore last (List.mem_of_getLast? hlast), if_pos hroot]
    · exact go_name _ hs.nonempty hs.notHere hup

end Normal

/-- **Every path is read in normal form.** -/
theorem ofText_normal (text : String) : Normal (ofText text) := by
  obtain ⟨hsplit, hproper⟩ := splitRoot_spec (slashed text).toList
  have hrest : '\\' ∉ (splitRoot (slashed text).toList).2 := by
    intro hmem
    refine backslash_notMem_slashed text ?_
    rw [← hsplit]
    exact List.mem_append_right _ hmem
  rw [ofText_eq_follow]
  exact (Normal.start hproper).follow fun s hs => unbroken_of_mem_stretches hrest hs

/-! ### The text of a normal form -/

theorem text_of_ne {p : Path} (h : p.root = .nowhere → p.segments ≠ []) :
    p.text = p.root.text ++ "/".intercalate p.segments :=
  if_neg fun hnone => h hnone.1 hnone.2

/-- A path up to its last name: nothing, or something that ends in a slash. -/
def IsFront (front : String) : Prop := front = "" ∨ ∃ before, front = before ++ "/"

/-- Joined names end in the last of them, whatever it is. -/
theorem join_concat (names : List String) :
    ∃ front, IsFront front ∧ ∀ last, "/".intercalate (names ++ [last]) = front ++ last := by
  cases names with
  | nil => exact ⟨"", .inl rfl, by simp⟩
  | cons name names =>
    refine ⟨"/".intercalate (name :: names) ++ "/", .inr ⟨_, rfl⟩, fun last => ?_⟩
    rw [String.intercalate_append_of_ne_nil (by simp) (by simp), String.intercalate_singleton]

/-- Joined names hold nothing but their own characters and the slashes between them. -/
theorem mem_join {names : List String} {c : Char} (h : c ∈ ("/".intercalate names).toList) :
    c = '/' ∨ ∃ s ∈ names, c ∈ s.toList := by
  induction names with
  | nil => simp at h
  | cons s names ih =>
    by_cases hnil : names = []
    · -- The last name has no slash after it.
      exact .inr ⟨s, List.mem_cons_self, by simpa [hnil] using h⟩
    · rw [String.intercalate_cons_of_ne_nil hnil] at h
      simp only [String.toList_append, List.mem_append] at h
      grind

namespace Normal

variable {p : Path}

theorem backslash_notMem_text (h : Normal p) : '\\' ∉ p.text.toList := by
  by_cases hne : p.root = .nowhere ∧ p.segments = []
  · rw [text, if_pos hne]
    decide
  rw [text, if_neg hne, String.toList_append, List.mem_append, not_or]
  constructor
  · -- A letter is no backslash.
    have hproper := h.proper
    cases hroot : p.root with
    | nowhere => simp [Root.text]
    | slash => simp [Root.text]
    | drive letter =>
      intro hmem
      have hletter : letter = '\\' := by simpa [Root.text, eq_comm] using hmem
      exact absurd (hletter ▸ hproper letter hroot) (by decide)
  · intro hmem
    obtain hslash | ⟨s, hs, hc⟩ := mem_join hmem
    · cases hslash
    · exact (h.segment s hs).backslash_notMem hc

theorem stretches_join (h : Normal p) (hne : p.segments ≠ []) :
    stretches ("/".intercalate p.segments).toList = p.segments :=
  Path.stretches_join hne fun s hs => (h.segment s hs).slash_notMem

/-- What lies between the slashes of a normal form. -/
theorem stretches_text (h : Normal p) (hne : p.segments ≠ []) :
    stretches p.text.toList = p.root.front ++ p.segments := by
  rw [text_of_ne fun _ => hne, String.toList_append, stretches_root_append h.proper, h.stretches_join hne]

theorem splitRoot_text (h : Normal p) (hroot : p.root ≠ .nowhere) :
    splitRoot p.text.toList = (p.root, ("/".intercalate p.segments).toList) := by
  rw [text_of_ne fun h => absurd h hroot, String.toList_append, splitRoot_append hroot h.proper]

end Normal

/-! ### Canonical texts -/

/-- The segments of a path as they stand in its text: what lies between the slashes after the root. A bare
root has none. -/
def segmentsOf (text : String) : List String :=
  if (splitRoot text.toList).2 = [] then [] else stretches (splitRoot text.toList).2

/-- **The canonical texts of paths,** told by the texts alone. -/
@[mk_iff] structure Canonical (text : String) : Prop where
  nonempty : text ≠ ""
  /-- There is no backslash. -/
  slashed : '\\' ∉ text.toList
  /-- No segment is empty, and none is `.` unless that is all. -/
  segment : ∀ s ∈ segmentsOf text, s ≠ "" ∧ (s = "." → text = ".")
  /-- There is no slash at the end but that of a bare root. -/
  closed : text.toList.getLast? = some '/' → text = (splitRoot text.toList).1.text
  /-- Only `..` comes before `..`: no name does, and no root. -/
  climbs : (stretches text.toList).Pairwise fun s s' => s' = ".." → s = ".."

instance (text : String) : Decidable (Canonical text) := decidable_of_iff' _ (canonical_iff text)

/-- The segments that are seen in the text of a normal form are its own. One may be missing: names that
start like a drive are seen as the drive. -/
theorem Normal.mem_segmentsOf_text {p : Path} (h : Normal p) {s : String} (hs : s ∈ segmentsOf p.text) :
    s ∈ p.segments ∨ s = "." ∧ p.text = "." := by
  unfold segmentsOf at hs
  split at hs
  · cases hs
  next hrest =>
  by_cases hroot : p.root = .nowhere
  · by_cases hne : p.segments = []
    · have htext : p.text = "." := if_pos ⟨hroot, hne⟩
      rw [htext] at hs ⊢
      change s ∈ stretches ".".toList at hs
      rw [stretches_of_notMem (by decide)] at hs
      exact .inr ⟨List.mem_singleton.mp hs, rfl⟩
    · -- Whatever root is seen, the segments come after it.
      have hsplit := splitRoot_spec p.text.toList
      have hstretches := h.stretches_text hne
      rw [hroot, ← hsplit.1, stretches_root_append hsplit.2] at hstretches
      have hsegments : (splitRoot p.text.toList).1.front ++ stretches (splitRoot p.text.toList).2 =
          p.segments := hstretches
      rw [← hsegments]
      exact .inl (List.mem_append_right _ hs)
  · rw [h.splitRoot_text hroot] at hs hrest
    have hne : p.segments ≠ [] := by
      rintro hnil
      exact hrest (by simp [hnil])
    rw [h.stretches_join hne] at hs
    exact .inl hs

/-- A normal form is its root, `.` or ends in a segment. -/
theorem Normal.text_cases {p : Path} (h : Normal p) :
    p = ⟨.nowhere, []⟩ ∨ (p.root ≠ .nowhere ∧ p.segments = [] ∧ p.text = p.root.text) ∨
      (p.segments ≠ [] ∧ ∃ front last, p.text = front ++ last ∧ IsSegment last) := by
  obtain ⟨root, segments⟩ := p
  obtain rfl | ⟨before, last, rfl⟩ := List.eq_nil_or_concat' segments
  · by_cases hroot : root = .nowhere
    · exact .inl (by rw [hroot])
    · refine .inr (.inl ⟨hroot, rfl, ?_⟩)
      rw [text_of_ne fun h => absurd h hroot, String.intercalate_nil, String.append_empty]
  · obtain ⟨front, -, hfront⟩ := join_concat before
    refine .inr (.inr ⟨by simp, root.text ++ front, last, ?_, h.segment last (by simp)⟩)
    rw [text_of_ne fun _ => by simp, hfront, String.append_assoc]

/-- **A normal form is written canonically.** -/
theorem Normal.canonical {p : Path} (h : Normal p) : Canonical p.text where
  nonempty := by
    obtain rfl | ⟨hroot, -, htext⟩ | ⟨-, front, last, htext, hlast⟩ := h.text_cases
    · decide
    · rw [htext]
      cases hr : p.root with
      | nowhere => exact absurd hr hroot
      | slash => decide
      | drive letter => simp [Root.text]
    · intro hempty
      exact hlast.nonempty (String.append_eq_empty_iff.mp (htext.symm.trans hempty)).2
  slashed := h.backslash_notMem_text
  segment s hs := by
    obtain hs | ⟨rfl, htext⟩ := h.mem_segmentsOf_text hs
    · exact ⟨(h.segment s hs).nonempty, fun hhere => absurd hhere (h.segment s hs).notHere⟩
    · exact ⟨by decide, fun _ => htext⟩
  closed hslash := by
    obtain rfl | ⟨hroot, -, htext⟩ | ⟨-, front, last, htext, hlast⟩ := h.text_cases
    · exact absurd hslash (by decide)
    · rw [h.splitRoot_text hroot, htext]
    · -- The last character is one of the last segment.
      rw [htext, String.toList_append, List.getLast?_append_of_ne_nil _ (by simpa using hlast.nonempty)] at hslash
      exact absurd (List.mem_of_getLast? hslash) hlast.slash_notMem
  climbs := by
    obtain rfl | ⟨hroot, -, htext⟩ | ⟨hne, -⟩ := h.text_cases
    · exact List.pairwise_singleton _ _
    · have htext' : p.text.toList = p.root.text.toList ++ [] := by rw [htext, List.append_nil]
      rw [htext', stretches_root_append h.proper, stretches_nil]
      cases p.root <;> simp [Root.front]
    · rw [h.stretches_text hne]
      refine List.pairwise_append.mpr ⟨?_, h.climbs, fun s hs s' hs' hup => ?_⟩
      · cases p.root <;> simp [Root.front]
      · have hnowhere : p.root = .nowhere := by
          by_contra hroot
          exact h.rooted hroot (hup ▸ hs')
        rw [hnowhere] at hs
        cases hs

/-- A root is not left by `..`. -/
theorem Normal.up_notMem_text {p : Path} (h : Normal p) (hroot : p.root ≠ .nowhere) :
    ".." ∉ stretches p.text.toList := by
  rw [text_of_ne fun h => absurd h hroot, String.toList_append, stretches_root_append h.proper,
    List.mem_append, not_or]
  refine ⟨fun hup => Root.ne_up_of_mem_front hup rfl, ?_⟩
  by_cases hne : p.segments = []
  · simp [hne]
  · rw [h.stretches_join hne]
    exact h.rooted hroot

/-- **A canonical text is the normal form of itself.** -/
theorem Canonical.normalize_eq {text : String} (h : Canonical text) : normalize text = text := by
  by_cases hhere : text = "."
  · rw [hhere]
    decide
  obtain ⟨hsplit, hproper⟩ := splitRoot_spec text.toList
  have hsegment := h.segment
  have hclimbs := h.climbs
  unfold segmentsOf at hsegment
  rw [← hsplit, stretches_root_append hproper] at hclimbs
  rw [normalize, ofText_eq_follow, slashed_eq_self h.slashed]
  generalize (splitRoot text.toList).1 = root at *
  generalize (splitRoot text.toList).2 = rest at *
  by_cases hrest : rest = []
  · -- A bare root: the one segment after it is empty.
    subst hrest
    have htext : root.text = text := String.ext (by simpa using hsplit)
    have hroot : root ≠ .nowhere := by
      rintro rfl
      exact h.nonempty htext.symm
    rw [stretches_nil, follow_cons, go_here _ (.inl rfl), follow_nil, text_of_ne fun h => absurd h hroot,
      String.intercalate_nil, String.append_empty, htext]
  · rw [if_neg hrest] at hsegment
    -- What is seen after the root is in normal form, be it the root that was meant or not.
    have hslashed : '\\' ∉ rest := fun hmem => h.slashed (by rw [← hsplit]; exact List.mem_append_right _ hmem)
    obtain ⟨-, hpairs, hfront⟩ := List.pairwise_append.mp hclimbs
    have hnormal : Normal ⟨root, stretches rest⟩ := by
      refine ⟨hproper, fun s hs => ⟨(hsegment s hs).1, fun hdot => hhere ((hsegment s hs).2 hdot),
        unbroken_of_mem_stretches hslashed hs⟩, hpairs, fun hroot hup => ?_⟩
      -- What stands for the root is not `..`.
      obtain ⟨s, hs⟩ := List.exists_mem_of_ne_nil _ (Root.front_ne_nil hroot)
      exact Root.ne_up_of_mem_front hs (hfront s hs ".." hup rfl)
    rw [hnormal.follow_self, text_of_ne fun _ => stretches_ne_nil rest, join_stretches]
    apply String.ext
    simpa using hsplit

/-- **Normal forms.** The normal form of any text is canonical; from a root it does not lead out by `..`.
The canonical texts are just those that are their own normal form, so a second pass changes nothing, though
it may see a drive where the first one saw a name. -/
theorem normalize_canonical (path : String) :
    Canonical (normalize path) ∧
      (isRooted path = true → ".." ∉ stretches (normalize path).toList) ∧
      normalize (normalize path) = normalize path ∧
      (Canonical path ↔ normalize path = path) := by
  have hcanonical : ∀ path, Canonical (normalize path) := fun path => (ofText_normal path).canonical
  refine ⟨hcanonical path, fun hrooted => ?_, (hcanonical path).normalize_eq, ?_⟩
  · exact (ofText_normal path).up_notMem_text (of_decide_eq_true hrooted)
  · exact ⟨Canonical.normalize_eq, fun h => h ▸ hcanonical path⟩

/-- The first pass sees a name here and the second one a drive, to the same effect. -/
example :
    normalize "./C:\\x//y/../" = "C:/x" ∧ isRooted "./C:\\x//y/../" = false ∧
      isRooted "C:/x" = true ∧ Canonical "C:/x" ∧ ¬Canonical "./C:/x" := by
  decide

end Path

end Story
