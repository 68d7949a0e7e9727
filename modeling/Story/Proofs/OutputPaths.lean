import Story.Proofs.RelativePaths

/-!
# Where the files of a story go

The script of a story goes to the same place below the directory of scripts as the story has below the
directory of stories. `Path.output` works this out on texts: it takes the relative path of the story,
changes its ending and follows it from the directory of scripts.

* `stem_append`, `withKind_join` — changing the ending of a path changes its last name and nothing else, and
  what comes out is a name again (`isSegment_withKind`);
* `combine_join` — names that are followed from a directory lie below it, be it rooted or relative. A
  relative directory may become a drive on the way (`ofText_withSlash_of_relative`), which is written
  in the same way;
* `combine_join_drive` — names that start like a drive are read as rooted, and so the directory is lost.

The last point is where the relative path of a file fails: `C:/x` below `/p` is not the way from `/p` to
`/p/C:/x`, though it is what `Path.relative` gives. `relative_leads_back_iff` says that nothing else goes wrong.
-/

namespace Story.Path

/-! ### Changing the ending of a name -/

section

variable {front name : String}

/-- An ending without a slash is that of the last name. -/
theorem isSuffixOf_append_name {ending front : List Char} (name : List Char) (hending : '/' ∉ ending)
    (hfront : front = [] ∨ ∃ before, front = before ++ ['/']) :
    ending.isSuffixOf (front ++ name) = ending.isSuffixOf name := by
  rw [Bool.eq_iff_iff, List.isSuffixOf_iff_suffix, List.isSuffixOf_iff_suffix]
  refine ⟨fun h => ?_, fun h => h.trans (List.suffix_append _ _)⟩
  obtain hle | hlt := le_or_gt ending.length name.length
  · exact List.suffix_of_suffix_length_le h (List.suffix_append _ _) hle
  -- Otherwise the ending goes beyond the name, over the slash before it.
  obtain ⟨more, rfl⟩ := List.suffix_of_suffix_length_le (List.suffix_append front name) h hlt.le
  have hmore : more <:+ front := by
    obtain ⟨rest, hrest⟩ := h
    rw [← List.append_assoc] at hrest
    exact ⟨rest, List.append_cancel_right hrest⟩
  obtain rfl | ⟨before, rfl⟩ := hfront
  · rw [List.suffix_nil.mp hmore]
    exact List.suffix_rfl
  · obtain rfl | ⟨more, last, rfl⟩ := List.eq_nil_or_concat' more
    · exact List.suffix_rfl
    · obtain ⟨rest, hrest⟩ := hmore
      rw [← List.append_assoc] at hrest
      obtain ⟨-, hlast⟩ := List.append_inj' hrest rfl
      obtain rfl : last = '/' := List.singleton_inj.mp hlast
      exact absurd (by simp) hending

theorem slash_notMem_ending (kind : FileKind) : '/' ∉ kind.ending.toList := by
  cases kind <;> decide

theorem ofPath?_append (hfront : IsFront front) (name : String) :
    FileKind.ofPath? (front ++ name) = FileKind.ofPath? name := by
  -- What comes before the name is empty or ends with a slash, and endings have no slash.
  have hlower : front.toList.map Char.toLower = [] ∨
      ∃ before, front.toList.map Char.toLower = before ++ ['/'] := by
    obtain rfl | ⟨before, rfl⟩ := hfront
    · exact .inl rfl
    · exact .inr ⟨before.toList.map Char.toLower, by simp⟩
  unfold FileKind.ofPath?
  congr 1
  funext kind
  rw [String.toList_append, List.map_append, isSuffixOf_append_name _ (slash_notMem_ending kind) hlower]

theorem splitName_append (hfront : IsFront front) (hname : ∀ c ∈ name.toList, isSeparator c = false) :
    splitName (front ++ name).toList = (front.toList, name.toList) := by
  -- Read from its end, the path starts with the name, up to the separator before it.
  have htake : (front ++ name).toList.reverse.takeWhile (fun c => !isSeparator c) = name.toList.reverse := by
    rw [String.toList_append, List.reverse_append, List.takeWhile_append_of_pos (by simpa using hname)]
    obtain rfl | ⟨before, rfl⟩ := hfront
    · simp
    · simp [isSeparator]
  unfold splitName
  dsimp only
  rw [htake, List.reverse_reverse, String.toList_append, List.reverse_append, List.drop_left,
    List.reverse_reverse]

theorem splitName_self (hname : ∀ c ∈ name.toList, isSeparator c = false) :
    splitName name.toList = ([], name.toList) := by
  simpa using @splitName_append "" name (.inl rfl) hname

/-- **The ending is dropped from the last name.** -/
theorem stem_append (hfront : IsFront front) (hname : ∀ c ∈ name.toList, isSeparator c = false) :
    stem (front ++ name) = front ++ stem name := by
  unfold stem
  rw [ofPath?_append hfront, splitName_append hfront hname, splitName_self hname]
  split
  · next hmap =>
    have hle : FileKind.map.ending.length ≤ name.length := by
      unfold FileKind.ofPath? at hmap
      have hsuffix := List.find?_some hmap
      simpa [String.length_toList] using (List.isSuffixOf_iff_suffix.mp hsuffix).length_le
    -- All of the ending is dropped from the name.
    have htake : (front ++ name).length - FileKind.map.ending.length =
        front.toList.length + (name.length - FileKind.map.ending.length) := by
      rw [String.length_append, String.length_toList]
      omega
    rw [htake, String.toList_append, List.take_length_add_append, String.ofList_append, String.ofList_toList]
  · dsimp only
    split
    · simp [String.ofList_append]
    · rfl

theorem mem_stem (hname : ∀ c ∈ name.toList, isSeparator c = false) :
    ∀ c ∈ (stem name).toList, c ∈ name.toList := by
  intro c hc
  unfold stem at hc
  rw [splitName_self hname] at hc
  split at hc
  · rw [String.toList_ofList] at hc
    exact List.mem_of_mem_take hc
  · dsimp only at hc
    split at hc
    · next hdrop =>
      -- What is left of the name, read from its end.
      have hsuffix : name.toList.reverse.dropWhile (fun c => decide (c ≠ '.')) <:+ name.toList.reverse :=
        List.dropWhile_suffix _
      rw [hdrop] at hsuffix
      have hc : c ∈ name.toList.reverse := hsuffix.subset (List.mem_cons_of_mem _ (by simpa [or_comm] using hc))
      simpa using hc
    · exact hc

/-- A name with another ending is a name, and does not lead anywhere else. -/
theorem isSegment_withKind (hname : ∀ c ∈ name.toList, isSeparator c = false) (kind : FileKind) :
    IsSegment (withKind name kind) ∧ withKind name kind ≠ ".." := by
  have hending : ∀ c ∈ kind.ending.toList, isSeparator c = false := by
    cases kind <;> simp [FileKind.ending, isSeparator]
  -- The ending makes it longer than `..`.
  have hlength : 3 ≤ (withKind name kind).length := by
    have hkind : 3 ≤ kind.ending.length := by cases kind <;> decide
    rw [withKind, String.length_append]
    exact hkind.trans (Nat.le_add_left _ _)
  refine ⟨⟨?_, ?_, fun c hc => ?_⟩, ?_⟩
  · exact fun h => absurd (h ▸ hlength) (by decide)
  · exact fun h => absurd (h ▸ hlength) (by decide)
  · rw [withKind, String.toList_append] at hc
    obtain hc | hc := List.mem_append.mp hc
    · exact hname c (mem_stem hname c hc)
    · exact hending c hc
  · exact fun h => absurd (h ▸ hlength) (by decide)

/-- Changing the ending of a path changes that of its last name. -/
theorem withKind_join (dirs : List String) (hname : ∀ c ∈ name.toList, isSeparator c = false)
    (kind : FileKind) :
    withKind ("/".intercalate (dirs ++ [name])) kind = "/".intercalate (dirs ++ [withKind name kind]) := by
  obtain ⟨front, hfront, hjoin⟩ := join_concat dirs
  rw [hjoin, hjoin, withKind, stem_append hfront hname, withKind, String.append_assoc]

end

/-! ### Names below a directory -/

section

variable {names : List String}

/-- Without `..`, names by themselves are a normal form. -/
theorem normal_nowhere (h : ∀ s ∈ names, IsSegment s) (hup : ".." ∉ names) : Normal ⟨.nowhere, names⟩ where
  proper := fun _ heq => by cases heq
  segment := h
  climbs := List.pairwise_of_forall_mem_list fun _ _ s' hs' heq => absurd (heq ▸ hs') hup
  rooted := fun h => absurd rfl h

theorem text_names (hne : names ≠ []) : (⟨.nowhere, names⟩ : Path).text = "/".intercalate names := by
  rw [text_of_ne fun _ => hne]
  exact String.empty_append

/-- A drive is written like a name. -/
theorem text_drive (letter : Char) (hne : names ≠ []) :
    (⟨.drive letter, names⟩ : Path).text = (⟨.nowhere, String.ofList [letter, ':'] :: names⟩ : Path).text := by
  rw [text_names (by simp), String.intercalate_cons_of_ne_nil hne, text_of_ne fun _ => hne]
  apply String.ext
  simp [Root.text]

theorem normalize_join (hne : names ≠ []) (h : ∀ s ∈ names, IsSegment s) (hup : ".." ∉ names) :
    normalize ("/".intercalate names) = "/".intercalate names := by
  rw [← text_names hne]
  exact (normal_nowhere h hup).canonical.normalize_eq

/-- A slash at the end of a relative directory makes no difference, unless the directory is named like a
drive: then it is read as the drive. -/
theorem ofText_withSlash_of_relative {base : String} (hroot : (ofText base).root = .nowhere) (hne : base ≠ "") :
    ofText (withSlash base) = ofText base ∨
      ∃ letter, ofText base = ⟨.nowhere, [String.ofList [letter, ':']]⟩ ∧
        ofText (withSlash base) = ⟨.drive letter, []⟩ := by
  obtain ⟨before, hbefore, heq | rfl⟩ := slashed_withSlash base
  · exact .inl (by rw [heq])
  have hcs : (slashed base).toList ≠ [] := by simpa [slashed] using hne
  obtain ⟨c, cs, htext⟩ := List.exists_cons_of_ne_nil hcs
  have hnowhere : (splitRoot (slashed base).toList).1 = .nowhere := by
    rw [← root_ofText]
    exact hroot
  rw [ofText_eq_follow, ofText_eq_follow base, hbefore, htext, List.cons_append, splitRoot_cons, splitRoot_cons]
  rw [htext, splitRoot_cons] at hnowhere
  split at hnowhere
  · cases hnowhere
  next hslash =>
  split at hnowhere
  · cases hnowhere
  next hdrive =>
  rw [if_neg hslash, if_neg hslash, if_neg hdrive]
  by_cases hletter : c.isAlpha = true ∧ [':', '/'] <+: cs ++ ['/']
  · -- The directory is named by two characters, since the slash is the one that was added.
    obtain rfl : cs = [':'] := by
      rcases cs with _ | ⟨d, _ | ⟨e, cs⟩⟩
      · simp at hletter
      · simpa [eq_comm] using hletter.2
      · exact absurd ⟨hletter.1, by simpa using hletter.2⟩ hdrive
    have hname : '/' ∉ (String.ofList [c, ':']).toList := by simpa [eq_comm] using hslash
    have hstretches : stretches [c, ':'] = [String.ofList [c, ':']] := by
      simpa using stretches_of_notMem hname
    have hname : String.ofList [c, ':'] ≠ "." ∧ String.ofList [c, ':'] ≠ ".." :=
      ⟨fun h => absurd (congrArg String.toList h) (by simp),
        fun h => absurd (congrArg String.toList h) (by simp)⟩
    refine .inr ⟨c, ?_, ?_⟩
    · rw [hstretches, follow_cons, go_name _ (by simp) hname.1 hname.2]
      rfl
    · rw [if_pos hletter]
      exact follow_nothing _
  · rw [if_neg hletter, ← List.cons_append]
    exact .inl (follow_stretches_slash _ _)

/-- **Names are followed from any directory,** unless they are read as rooted. -/
theorem combine_join (base : String) (hne : names ≠ []) (h : ∀ s ∈ names, IsSegment s) (hup : ".." ∉ names)
    (hdrive : ¬StartsAtDrive names) :
    combine base ("/".intercalate names) = ((ofText base).below names).text := by
  have hunrooted : isRooted ("/".intercalate names) = false :=
    Bool.eq_false_iff.mpr fun hrooted => hdrive ((isRooted_join_iff hne h).mp hrooted)
  have hfollow (p : Path) : p.follow (stretches (slashed ("/".intercalate names)).toList) = p.below names := by
    rw [slashed_eq_self (backslash_notMem_join h), stretches_join hne fun s hs => (h s hs).slash_notMem,
      follow_names p h hup]
  unfold combine
  rw [hunrooted, Bool.false_or]
  by_cases hbase : base = ""
  · -- From nowhere the names are the whole path.
    subst hbase
    have hempty : ofText "" = ⟨.nowhere, []⟩ := by decide
    rw [if_pos (by decide), normalize_join hne h hup, hempty]
    exact (text_names hne).symm
  · rw [if_neg (by simpa using hbase), normalize, ofText_withSlash_append, hfollow]
    by_cases hroot : (ofText base).root = .nowhere
    · -- A relative directory, or one letter and a colon, which a slash makes into a drive.
      obtain heq | ⟨letter, hbase, heq⟩ := ofText_withSlash_of_relative hroot hbase
      · rw [heq]
      · rw [heq, hbase]
        exact text_drive letter hne
    · rw [ofText_withSlash hroot]

/-- Names that are read as rooted lead away from the directory. -/
theorem combine_join_drive (base : String) (h : ∀ s ∈ names, IsSegment s) (hup : ".." ∉ names)
    (hdrive : StartsAtDrive names) : combine base ("/".intercalate names) = "/".intercalate names := by
  have hne := ne_nil_of_startsAtDrive hdrive
  rw [combine, (isRooted_join_iff hne h).mpr hdrive, Bool.true_or, if_pos rfl, normalize_join hne h hup]

end

/-! ### Leading back and out -/

section

variable {source target : String}

/-- The relative path is read as rooted if and only if the way starts like a drive. -/
theorem isRooted_relative_iff (hroot : (ofText source).root = (ofText target).root) :
    isRooted (relative source target) = true ↔
      StartsAtDrive (steps (ofText source).segments (ofText target).segments) := by
  rw [relative_eq hroot]
  split
  · next hnil =>
    rw [hnil]
    exact ⟨fun h => absurd h (by decide), fun h => absurd rfl (ne_nil_of_startsAtDrive h)⟩
  · next hne => exact isRooted_join_iff hne (isSegment_steps source target)

/-- A way that starts like a drive does not lead out first, so it goes on from where it starts. -/
theorem append_steps_of_startsAtDrive {names names' : List String} (h : StartsAtDrive (steps names names')) :
    names ++ steps names names' = names' := by
  obtain ⟨shared, out, into, rfl, rfl, hsteps⟩ := steps_spec names names'
  rw [hsteps] at h ⊢
  cases out with
  | nil => simp
  | cons s out =>
    -- The way would start with `..`, which is no drive.
    obtain ⟨letter, second, more, -, hnames⟩ := h
    rw [List.length_cons, List.replicate_succ] at hnames
    obtain ⟨hfirst, -⟩ := List.cons.inj hnames
    exact absurd (congrArg String.toList hfirst) (by simp)

/-- With a root in front, a path is not written like its last names alone. -/
theorem join_ne_text {p : Path} (hp : Normal p) (hroot : p.root ≠ .nowhere) {before names : List String}
    (hne : names ≠ []) (hnames : before ++ names = p.segments) : "/".intercalate names ≠ p.text := by
  intro heq
  have hsegments : p.segments ≠ [] := by simp [← hnames, hne]
  have hunbroken : ∀ s ∈ names, '/' ∉ s.toList := fun s hs =>
    (hp.segment s (by rw [← hnames]; exact List.mem_append_right _ hs)).slash_notMem
  have hstretches := hp.stretches_text hsegments
  rw [← heq, stretches_join hne hunbroken, ← hnames] at hstretches
  -- On the one side stand the last names alone, on the other the root and all names.
  have hlength := congrArg List.length hstretches
  have hfront := List.length_pos_iff.mpr (Root.front_ne_nil hroot)
  simp only [List.length_append] at hlength
  omega

/-- **A relative path leads back if and only if it is not read as rooted.** -/
theorem combine_relative_eq_iff (hroot : (ofText source).root = (ofText target).root)
    (hrooted : (ofText target).root ≠ .nowhere) :
    combine source (relative source target) = normalize target ↔ isRooted (relative source target) = false := by
  constructor
  · intro hcombine
    rw [Bool.eq_false_iff]
    intro hdrive
    have hstarts := (isRooted_relative_iff hroot).mp hdrive
    have hne := ne_nil_of_startsAtDrive hstarts
    -- The way goes down from the source, so it is the end of the target and nothing more.
    have htarget := append_steps_of_startsAtDrive hstarts
    have hup : ".." ∉ steps (ofText source).segments (ofText target).segments := fun hup =>
      (ofText_normal target).rooted hrooted (by rw [← htarget]; exact List.mem_append_right _ hup)
    rw [relative_eq hroot, if_neg hne,
      combine_join_drive source (isSegment_steps source target) hup hstarts] at hcombine
    exact join_ne_text (ofText_normal target) hrooted hne htarget hcombine
  · intro hunrooted
    have hsource : (ofText source).root ≠ .nowhere := by
      rw [hroot]
      exact hrooted
    exact combine_eq_of_follow hsource hunrooted (backslash_notMem_relative hroot)
      (follow_relative hroot hrooted)

/-- Directories the first of which is named like a drive. -/
def StartsInDrive (dirs : List String) : Prop :=
  ∃ letter more, letter.isAlpha = true ∧ dirs = String.ofList [letter, ':'] :: more

/-- Whether the way to a file starts like a drive is seen from its directories, whatever the file is named. -/
theorem startsAtDrive_concat {dirs : List String} {name : String} :
    StartsAtDrive (dirs ++ [name]) ↔ StartsInDrive dirs := by
  constructor
  · rintro ⟨letter, second, more, hletter, hnames⟩
    cases dirs with
    -- One name alone is no drive, since a drive has something after it.
    | nil => cases hnames
    | cons first dirs =>
      obtain ⟨rfl, -⟩ := List.cons.inj hnames
      exact ⟨letter, dirs, hletter, rfl⟩
  · rintro ⟨letter, more, hletter, rfl⟩
    obtain ⟨second, rest, hrest⟩ := List.exists_cons_of_ne_nil (List.concat_ne_nil name more)
    exact ⟨letter, second, rest, hletter, by rw [List.cons_append, hrest]⟩

/-- The names on the way to an output are segments, and none of them leads out. -/
theorem isSegment_output {dirs : List String} {name : String}
    (hbelow : (ofText target).segments = (ofText source).segments ++ (dirs ++ [name]))
    (hrooted : (ofText target).root ≠ .nowhere) (kind : FileKind) :
    (∀ s ∈ dirs ++ [withKind name kind], IsSegment s) ∧ ".." ∉ dirs ++ [withKind name kind] := by
  have hnormal := ofText_normal target
  have hkind := isSegment_withKind (hnormal.segment name (by rw [hbelow]; simp)).unbroken kind
  constructor
  · refine List.forall_mem_append.mpr ⟨fun s hs => ?_, List.forall_mem_singleton.mpr hkind.1⟩
    exact hnormal.segment s (by rw [hbelow]; simp [hs])
  · rw [List.mem_append, List.mem_singleton, not_or]
    refine ⟨fun hup => hnormal.rooted hrooted ?_, Ne.symm hkind.2⟩
    rw [hbelow]
    simp [hup]

/-- **Outputs lie where their sources lie.** -/
theorem output_eq (hroot : (ofText source).root = (ofText target).root)
    (hrooted : (ofText target).root ≠ .nowhere) {dirs : List String} {name : String}
    (hbelow : (ofText target).segments = (ofText source).segments ++ (dirs ++ [name]))
    (outputRoot : String) (kind : FileKind) :
    (StartsAtDrive (dirs ++ [name]) →
        output target source outputRoot kind = "/".intercalate (dirs ++ [withKind name kind])) ∧
      (¬StartsAtDrive (dirs ++ [name]) →
        output target source outputRoot kind =
          ((ofText outputRoot).below (dirs ++ [withKind name kind])).text) := by
  have hname : ∀ c ∈ name.toList, isSeparator c = false :=
    ((ofText_normal target).segment name (by rw [hbelow]; simp)).unbroken
  obtain ⟨hnames, hup⟩ := isSegment_output hbelow hrooted kind
  -- The relative path is the names below the source, and only the last of them is changed.
  have houtput : output target source outputRoot kind =
      combine outputRoot ("/".intercalate (dirs ++ [withKind name kind])) := by
    rw [output, relative_eq hroot, hbelow, steps_append, if_neg (by simp), withKind_join dirs hname]
  have hstarts : StartsAtDrive (dirs ++ [name]) ↔ StartsAtDrive (dirs ++ [withKind name kind]) :=
    startsAtDrive_concat.trans startsAtDrive_concat.symm
  rw [houtput, hstarts]
  exact ⟨combine_join_drive outputRoot hnames hup, combine_join outputRoot (by simp) hnames hup⟩

/-- **Leading back.** Between two places at one root, the relative path is read as rooted if and only if its
first name is that of a drive and there are more names after it. Then it leads to the drive and away from the
target; otherwise, and only then, it leads from the one place to the other. So a file below the directory
of sources goes to the same place below the directory of outputs, whatever that is, unless the way to the
file starts with such a name: then it goes to the drive. -/
theorem relative_leads_back_iff (hroot : (ofText source).root = (ofText target).root)
    (hrooted : isRooted target = true) :
    (isRooted (relative source target) = true ↔
        StartsAtDrive (steps (ofText source).segments (ofText target).segments)) ∧
      (combine source (relative source target) = normalize target ↔
        isRooted (relative source target) = false) ∧
      ∀ dirs name, (ofText target).segments = (ofText source).segments ++ (dirs ++ [name]) →
        ∀ outputRoot kind,
          (StartsAtDrive (dirs ++ [name]) →
            output target source outputRoot kind = "/".intercalate (dirs ++ [withKind name kind])) ∧
          (¬StartsAtDrive (dirs ++ [name]) →
            output target source outputRoot kind =
              ((ofText outputRoot).below (dirs ++ [withKind name kind])).text) := by
  have htarget := isRooted_iff.mp hrooted
  refine ⟨isRooted_relative_iff hroot, combine_relative_eq_iff hroot htarget, ?_⟩
  intro dirs name hbelow outputRoot kind
  exact output_eq hroot htarget hbelow outputRoot kind

/-- A directory that is named like a drive: the way into it does not lead back, and the output of a file in it
is not below the directory of outputs. -/
theorem relative_leads_back_iff_drive :
    (ofText "/p/src").root = (ofText "/p/src/C:/x.st").root ∧ isRooted "/p/src/C:/x.st" = true ∧
      combine "/p/src" (relative "/p/src" "/p/src/C:/x.st") ≠ normalize "/p/src/C:/x.st" ∧
      output "/p/src/C:/x.st" "/p/src" "/p/dist" .script = "C:/x.js" := by
  have hroot : (ofText "/p/src").root = (ofText "/p/src/C:/x.st").root := by decide
  have hrooted : isRooted "/p/src/C:/x.st" = true := by decide
  obtain ⟨-, hback, houtput⟩ := relative_leads_back_iff hroot hrooted
  refine ⟨hroot, hrooted, fun h => absurd (hback.mp h) (by decide +kernel), ?_⟩
  have hdrive : StartsAtDrive (["C:"] ++ ["x.st"]) := ⟨'C', "x.st", [], by decide, by decide⟩
  rw [(houtput ["C:"] "x.st" (by decide +kernel) "/p/dist" .script).1 hdrive]
  decide +kernel

end

end Story.Path
