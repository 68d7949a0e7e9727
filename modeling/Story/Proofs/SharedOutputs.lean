import Story.Project.Compile
import Story.Proofs.OutputPaths

/-!
# Stories that share an output

The files of a story are named after the story, at the same place below the directory of outputs as the story has
below the directory of stories. So two stories should not share a file. `outputs_shared_iff` says when they do.

* `stretches_inj` — a text is known by what lies between its slashes. So outputs are compared as lists of names
  (`stretches_output`), and the changes of texts that lead to them do not come in again;
* `storyStem` — what is left of the name of a story without its ending. A name that is all ending keeps it, so
  `.st` and `.st.st` are named alike (`storyStem_eq_iff`), and no other two names are;
* `Retraces` — a way that starts like a drive leads to the drive and not below the directory of outputs. From
  there it may lead into that directory after all, to the place of another story;
* `kind_eq_of_ending` — a script, a map and a typed copy end in different ways, so the script of one story is never
  the map or the typed copy of another (`exists_shared_iff`).
-/

namespace Story.Path

/-- A text is known by what lies between its slashes. -/
theorem stretches_inj {text text' : String} :
    stretches text.toList = stretches text'.toList ↔ text = text' := by
  constructor
  · intro h
    -- Joined again, the stretches are the text.
    have hjoin : "/".intercalate (stretches text.toList) = "/".intercalate (stretches text'.toList) := by
      rw [h]
    rw [join_stretches, join_stretches, String.ofList_toList, String.ofList_toList] at hjoin
    exact hjoin
  · rintro rfl
    rfl

/-! ### Names of stories -/

/-- What is left of the name of a story, given here without its ending, when the ending is dropped. A name
that is all ending keeps it. -/
def storyStem (name : String) : String := if name = "" then FileKind.story.ending else name

section

variable {name name' : String}

theorem ofPath?_story (name : String) : FileKind.ofPath? (name ++ FileKind.story.ending) = some .story := by
  have hlower : (name ++ FileKind.story.ending).toList.map Char.toLower =
      name.toList.map Char.toLower ++ FileKind.story.ending.toList := by
    rw [String.toList_append, List.map_append]
    congr 1
  -- Stories are the first of all kinds.
  unfold FileKind.ofPath? FileKind.all
  rw [hlower, List.find?_cons_of_pos]
  exact List.isSuffixOf_iff_suffix.mpr (List.suffix_append _ _)

theorem stem_story (hname : ∀ c ∈ name.toList, isSeparator c = false) :
    stem (name ++ FileKind.story.ending) = storyStem name := by
  have hending : ∀ c ∈ FileKind.story.ending.toList, isSeparator c = false := by
    have hall : (FileKind.story.ending.toList.all fun c => !isSeparator c) = true := by decide
    simpa using hall
  have hunbroken : ∀ c ∈ (name ++ FileKind.story.ending).toList, isSeparator c = false := by
    rw [String.toList_append]
    exact List.forall_mem_append.mpr ⟨hname, hending⟩
  -- Read from its end, the name comes to the dot of its ending first.
  have hdrop : (name ++ FileKind.story.ending).toList.reverse.dropWhile (fun c => decide (c ≠ '.')) =
      '.' :: name.toList.reverse := by
    rw [String.toList_append, List.reverse_append]
    rfl
  unfold stem storyStem
  rw [ofPath?_story, if_neg (by decide), splitName_self hunbroken]
  simp only [hdrop]
  by_cases hempty : name = ""
  · subst hempty
    rfl
  · have hne : name.toList.reverse ≠ [] := by simpa using hempty
    obtain ⟨c, cs, hcs⟩ := List.exists_cons_of_ne_nil hne
    rw [if_neg hempty, hcs]
    dsimp only
    rw [← hcs, List.reverse_reverse, List.nil_append, String.ofList_toList]

/-- Two names have one stem if they are the same, or if the one is all ending and the other is the ending
twice. -/
theorem storyStem_eq_iff : storyStem name = storyStem name' ↔
    name = name' ∨ name = "" ∧ name' = FileKind.story.ending ∨ name = FileKind.story.ending ∧ name' = "" := by
  -- Only the empty stem is avoided, and the ending is put in its place.
  have hne : FileKind.story.ending ≠ "" := by decide
  unfold storyStem
  split_ifs with h h'
  · simp [h, h']
  · simp only [h, true_and, hne.symm, false_and, or_false]
    constructor
    · exact fun heq => .inr heq.symm
    · rintro (heq | heq)
      · exact absurd heq.symm h'
      · exact heq.symm
  · next h' =>
    simp only [h, h', false_and, and_true, false_or]
  · next h' =>
    simp only [h, h', false_and, and_false, or_false]

/-- With another ending, names are the same if and only if their stems are. -/
theorem withKind_story_inj (hname : ∀ c ∈ name.toList, isSeparator c = false)
    (hname' : ∀ c ∈ name'.toList, isSeparator c = false) (kind : FileKind) :
    withKind (name ++ FileKind.story.ending) kind = withKind (name' ++ FileKind.story.ending) kind ↔
      storyStem name = storyStem name' := by
  unfold withKind
  rw [stem_story hname, stem_story hname']
  exact String.append_left_inj _

end

/-! ### Outputs as lists of names -/

attribute [ext] Path

@[simp] theorem root_below (p : Path) (names : List String) : (p.below names).root = p.root := rfl

@[simp] theorem segments_below (p : Path) (names : List String) :
    (p.below names).segments = p.segments ++ names := rfl

/-- A file in normal form that is reached from the directory `source` by these names. -/
structure LiesAt (source file : String) (names : List String) : Prop where
  normal : normalize file = file
  root : (ofText source).root = (ofText file).root
  segments : (ofText file).segments = (ofText source).segments ++ names

section

variable {source file file' name name' : String} {dirs dirs' names names' : List String}

namespace LiesAt

/-- From one directory, different names lead to different files. -/
theorem file_eq_iff (h : LiesAt source file names) (h' : LiesAt source file' names') :
    file = file' ↔ names = names' := by
  constructor
  · rintro rfl
    exact List.append_cancel_left (h.segments.symm.trans h'.segments)
  · rintro rfl
    -- Both are the normal forms of one path.
    have hpath : ofText file = ofText file' := by
      apply Path.ext
      · exact h.root.symm.trans h'.root
      · exact h.segments.trans h'.segments.symm
    rw [← h.normal, ← h'.normal, normalize, normalize, hpath]

theorem rooted (h : LiesAt source file names) (hsource : isRooted source = true) :
    (ofText file).root ≠ .nowhere := by
  rw [← h.root]
  exact isRooted_iff.mp hsource

theorem unbroken (h : LiesAt source file (dirs ++ [name])) : ∀ c ∈ name.toList, isSeparator c = false := by
  have hmem : name ∈ (ofText file).segments := by
    rw [h.segments]
    simp
  exact ((ofText_normal file).segment name hmem).unbroken

/-- What lies between the slashes of an output: the names on the way to the file, with another ending, and
before them those of the directory of outputs unless the way starts like a drive. -/
theorem stretches_output (h : LiesAt source file (dirs ++ [name])) (hsource : isRooted source = true)
    (outputRoot : String) (kind : FileKind) :
    (StartsInDrive dirs →
        stretches (output file source outputRoot kind).toList = dirs ++ [withKind name kind]) ∧
      (¬StartsInDrive dirs →
        stretches (output file source outputRoot kind).toList =
          (ofText outputRoot).root.front ++ (ofText outputRoot).segments ++ (dirs ++ [withKind name kind])) := by
  obtain ⟨hdrive, hplain⟩ := output_eq h.root (h.rooted hsource) h.segments outputRoot kind
  obtain ⟨hsegments, hup⟩ := isSegment_output h.segments (h.rooted hsource) kind
  rw [startsAtDrive_concat] at hdrive hplain
  constructor
  · intro hstarts
    rw [hdrive hstarts, stretches_join (by simp) fun s hs => (hsegments s hs).slash_notMem]
  · intro hstarts
    -- Names that do not lead out keep the normal form of the directory.
    have hnormal : Normal ((ofText outputRoot).below (dirs ++ [withKind name kind])) := by
      rw [← follow_names _ hsegments hup]
      exact (ofText_normal outputRoot).follow fun s hs => (hsegments s hs).unbroken
    rw [hplain hstarts, hnormal.stretches_text (by simp), root_below, segments_below, List.append_assoc]

/-- An output ends like the files of its kind. -/
theorem output_ends (h : LiesAt source file (dirs ++ [name])) (hsource : isRooted source = true)
    (outputRoot : String) (kind : FileKind) :
    ∃ front, output file source outputRoot kind = front ++ kind.ending := by
  obtain ⟨hdrive, hplain⟩ := h.stretches_output hsource outputRoot kind
  -- Wherever the output is, its last name is the one with the other ending.
  have hlast : ∃ before, stretches (output file source outputRoot kind).toList =
      before ++ [withKind name kind] := by
    by_cases hstarts : StartsInDrive dirs
    · exact ⟨dirs, hdrive hstarts⟩
    · rw [hplain hstarts, ← List.append_assoc]
      exact ⟨_, rfl⟩
  obtain ⟨before, hbefore⟩ := hlast
  obtain ⟨front, -, hfront⟩ := join_concat before
  have htext := join_stretches (output file source outputRoot kind).toList
  rw [hbefore, hfront, String.ofList_toList, withKind, ← String.append_assoc] at htext
  exact ⟨front ++ stem name, htext.symm⟩

end LiesAt

/-! ### One output for two stories -/

/-- One way starts like a drive and so leads through the directory of outputs, to where the other way leads
from there. -/
def Retraces (outputRoot : String) (dirs dirs' : List String) : Prop :=
  StartsInDrive dirs ∧ ¬StartsInDrive dirs' ∧
    dirs = (ofText outputRoot).root.front ++ (ofText outputRoot).segments ++ dirs'

/-- **What makes two stories share an output.** They lie in one directory, and the name of the one is nothing but
the ending of stories while that of the other is the ending twice. Or their names have one stem, and the way to
one of them retraces the directory of outputs. -/
def Collide (outputRoot : String) (dirs : List String) (name : String) (dirs' : List String)
    (name' : String) : Prop :=
  (dirs = dirs' ∧
    (name = "" ∧ name' = FileKind.story.ending ∨ name = FileKind.story.ending ∧ name' = "")) ∨
  (storyStem name = storyStem name' ∧ (Retraces outputRoot dirs dirs' ∨ Retraces outputRoot dirs' dirs))

theorem unbroken_of_story (h : ∀ c ∈ (name ++ FileKind.story.ending).toList, isSeparator c = false) :
    ∀ c ∈ name.toList, isSeparator c = false := by
  rw [String.toList_append] at h
  exact (List.forall_mem_append.mp h).1

/-- **Outputs are the same if and only if** the stems of the names are, and the places are: in one directory, or
where one way retraces the directory of outputs. -/
theorem output_eq_output_iff (h : LiesAt source file (dirs ++ [name ++ FileKind.story.ending]))
    (h' : LiesAt source file' (dirs' ++ [name' ++ FileKind.story.ending])) (hsource : isRooted source = true)
    (outputRoot : String) (kind : FileKind) :
    output file source outputRoot kind = output file' source outputRoot kind ↔
      storyStem name = storyStem name' ∧
        (dirs = dirs' ∨ Retraces outputRoot dirs dirs' ∨ Retraces outputRoot dirs' dirs) := by
  obtain ⟨hdrive, hplain⟩ := h.stretches_output hsource outputRoot kind
  obtain ⟨hdrive', hplain'⟩ := h'.stretches_output hsource outputRoot kind
  have hstem := withKind_story_inj (unbroken_of_story h.unbroken) (unbroken_of_story h'.unbroken) kind
  rw [← stretches_inj, ← hstem]
  by_cases hstarts : StartsInDrive dirs <;> by_cases hstarts' : StartsInDrive dirs'
  · -- Both lead to drives, each by its own names.
    rw [hdrive hstarts, hdrive' hstarts', List.append_singleton_inj]
    simp [Retraces, hstarts, hstarts', and_comm]
  · rw [hdrive hstarts, hplain' hstarts', ← List.append_assoc, List.append_singleton_inj]
    have hne : dirs ≠ dirs' := fun heq => hstarts' (heq ▸ hstarts)
    simp [Retraces, hstarts, hstarts', hne, and_comm]
  · rw [hplain hstarts, hdrive' hstarts', ← List.append_assoc, List.append_singleton_inj]
    have hne : dirs ≠ dirs' := fun heq => hstarts (heq ▸ hstarts')
    simp [Retraces, hstarts, hstarts', hne, and_comm, eq_comm]
  · -- Both lie below the directory of outputs.
    rw [hplain hstarts, hplain' hstarts', List.append_cancel_left_eq, List.append_singleton_inj]
    simp [Retraces, hstarts, hstarts', and_comm]

/-- Of two different stories, one directory holds both only if the names are the ending once and twice. -/
theorem output_eq_output_iff_collide (h : LiesAt source file (dirs ++ [name ++ FileKind.story.ending]))
    (h' : LiesAt source file' (dirs' ++ [name' ++ FileKind.story.ending])) (hsource : isRooted source = true)
    (hne : file ≠ file') (outputRoot : String) (kind : FileKind) :
    output file source outputRoot kind = output file' source outputRoot kind ↔
      Collide outputRoot dirs name dirs' name' := by
  have hnames : dirs = dirs' → name ≠ name' := by
    rintro rfl rfl
    exact hne ((h.file_eq_iff h').mpr rfl)
  -- In one directory the names are different, so the stems are the same for the other reason.
  have hsame : storyStem name = storyStem name' ∧ dirs = dirs' ↔
      dirs = dirs' ∧
        (name = "" ∧ name' = FileKind.story.ending ∨ name = FileKind.story.ending ∧ name' = "") := by
    rw [and_comm]
    refine and_congr_right fun hdirs => ?_
    rw [storyStem_eq_iff]
    exact or_iff_right (hnames hdirs)
  rw [output_eq_output_iff h h' hsource, and_or_left, hsame]
  rfl

/-! ### The files of a story -/

/-- No kind of file ends like another. -/
theorem kind_eq_of_ending {front front' : String} {kind kind' : FileKind}
    (h : front ++ kind.ending = front' ++ kind'.ending) : kind = kind' := by
  -- Of two endings of one text, one is an ending of the other.
  have hkinds : ∀ kind kind' : FileKind, kind.ending.toList <:+ kind'.ending.toList → kind = kind' := by
    intro kind kind'
    cases kind <;> cases kind' <;> decide
  have htext : front.toList ++ kind.ending.toList = front'.toList ++ kind'.ending.toList := by
    rw [← String.toList_append, h, String.toList_append]
  have hsuffix : kind.ending.toList <:+ front'.toList ++ kind'.ending.toList := ⟨front.toList, htext⟩
  obtain hle | hle := List.suffix_or_suffix_of_suffix hsuffix (List.suffix_append _ _)
  · exact hkinds kind kind' hle
  · exact (hkinds kind' kind hle).symm

/-- The file of a kind that is made from a story, if there is one. -/
def fileOf (s : Settings) (o : EmitOptions) (file : String) : FileKind → Option String
  | .script => some (s.scriptPath file)
  | .map => if o.withMap then some (s.scriptPath file ++ ".map") else none
  | .typed => s.typedPath file
  | .story | .settings => none

/-- The files that are made from a story are one of each kind. -/
theorem mem_emit_files {o : EmitOptions} {s : Settings} {text path : String} :
    path ∈ (emit o (s.request file none) text).files.map OutputFile.path ↔
      ∃ kind, fileOf s o file kind = some path := by
  have htarget : (s.request file none).target = s.scriptPath file := rfl
  have htyped : (s.request file none).typedFile = s.typedPath file := rfl
  -- Stories and settings are read and never made.
  have hkinds : (∃ kind, fileOf s o file kind = some path) ↔
      fileOf s o file .script = some path ∨ fileOf s o file .map = some path ∨
        fileOf s o file .typed = some path := by
    constructor
    · rintro ⟨kind, hkind⟩
      cases kind with
      | script => exact .inl hkind
      | map => exact .inr (.inl hkind)
      | typed => exact .inr (.inr hkind)
      | story | settings => cases hkind
    · rintro (hkind | hkind | hkind) <;> exact ⟨_, hkind⟩
  rw [hkinds]
  unfold emit fileOf
  dsimp only
  rw [htarget, htyped]
  cases o.withMap <;> cases s.typedPath file <;> simp [eq_comm]

/-- The file of a kind ends like the files of this kind. -/
theorem LiesAt.fileOf_ends {s : Settings} {o : EmitOptions} {kind : FileKind} {path : String}
    (h : LiesAt s.sourceRoot file (dirs ++ [name])) (hsource : isRooted s.sourceRoot = true)
    (hpath : fileOf s o file kind = some path) : ∃ front, path = front ++ kind.ending := by
  cases kind with
  | story | settings => cases hpath
  | script =>
    obtain rfl := Option.some.inj hpath
    exact h.output_ends hsource s.scriptRoot .script
  | map =>
    obtain ⟨-, hpath⟩ := Option.ite_none_right_eq_some.mp hpath
    -- A map has the name of its script with an ending more.
    obtain ⟨front, hfront⟩ := h.output_ends hsource s.scriptRoot .script
    rw [← Option.some.inj hpath, Settings.scriptPath, hfront, String.append_assoc]
    exact ⟨front, rfl⟩
  | typed =>
    obtain ⟨-, htyped⟩ := Option.ite_none_right_eq_some.mp hpath
    obtain ⟨root, -, rfl⟩ := Option.map_eq_some_iff.mp htyped
    exact h.output_ends hsource root .typed

/-- **A file that two stories share** is the script of both, the map of both or the typed copy of both. So there
is one if and only if the scripts or the typed copies go to the same place. -/
theorem exists_shared_iff {s : Settings} (h : LiesAt s.sourceRoot file (dirs ++ [name]))
    (h' : LiesAt s.sourceRoot file' (dirs' ++ [name'])) (hsource : isRooted s.sourceRoot = true)
    (o : EmitOptions) (text text' : String) :
    (∃ path, path ∈ (emit o (s.request file none) text).files.map OutputFile.path ∧
        path ∈ (emit o (s.request file' none) text').files.map OutputFile.path) ↔
      s.scriptPath file = s.scriptPath file' ∨
        ∃ path, s.typedPath file = some path ∧ s.typedPath file' = some path := by
  simp only [mem_emit_files]
  constructor
  · rintro ⟨path, ⟨kind, hpath⟩, kind', hpath'⟩
    obtain ⟨front, rfl⟩ := h.fileOf_ends hsource hpath
    obtain ⟨front', hfront⟩ := h'.fileOf_ends hsource hpath'
    obtain rfl : kind = kind' := kind_eq_of_ending hfront
    cases kind with
    | story | settings => cases hpath
    | script => exact .inl (Option.some.inj (hpath.trans hpath'.symm))
    | map =>
      -- Beside one map there is one script.
      obtain ⟨-, hpath⟩ := Option.ite_none_right_eq_some.mp hpath
      obtain ⟨-, hpath'⟩ := Option.ite_none_right_eq_some.mp hpath'
      have hmaps : s.scriptPath file ++ ".map" = s.scriptPath file' ++ ".map" :=
        Option.some.inj (hpath.trans hpath'.symm)
      exact .inl ((String.append_left_inj _).mp hmaps)
    | typed => exact .inr ⟨_, hpath, hpath'⟩
  · rintro (hscripts | ⟨path, hpath, hpath'⟩)
    · exact ⟨s.scriptPath file, ⟨.script, rfl⟩, .script, congrArg some hscripts.symm⟩
    · exact ⟨path, ⟨.typed, hpath⟩, .typed, hpath'⟩

/-- **Stories that share an output.** Two different stories below one directory have the same output, of whatever
kind, if and only if they collide: they are `.st` and `.st.st` in one directory, or the way to one of them is read
from a drive and retraces the directory of outputs. Of all files that are made from the two, none is the same
unless the stories collide, be it below the directory of scripts or below that of typed copies. -/
theorem outputs_shared_iff (h : LiesAt source file (dirs ++ [name ++ FileKind.story.ending]))
    (h' : LiesAt source file' (dirs' ++ [name' ++ FileKind.story.ending])) (hsource : isRooted source = true)
    (hne : file ≠ file') :
    (∀ outputRoot kind, output file source outputRoot kind = output file' source outputRoot kind ↔
        Collide outputRoot dirs name dirs' name') ∧
      ∀ (s : Settings) (o : EmitOptions) (text text' : String), s.sourceRoot = source →
        ((∃ path, path ∈ (emit o (s.request file none) text).files.map OutputFile.path ∧
            path ∈ (emit o (s.request file' none) text').files.map OutputFile.path) ↔
          Collide s.scriptRoot dirs name dirs' name' ∨
            ∃ root, s.writesTyped = true ∧ s.typedRoot = some root ∧ Collide root dirs name dirs' name') := by
  have houtput := output_eq_output_iff_collide h h' hsource hne
  refine ⟨houtput, fun s o text text' hs => ?_⟩
  subst hs
  rw [exists_shared_iff h h' hsource o text text', Settings.scriptPath, Settings.scriptPath, houtput]
  refine or_congr_right ?_
  unfold Settings.typedPath
  constructor
  · rintro ⟨path, hpath, hpath'⟩
    obtain ⟨hwrites, hpath⟩ := Option.ite_none_right_eq_some.mp hpath
    obtain ⟨-, hpath'⟩ := Option.ite_none_right_eq_some.mp hpath'
    obtain ⟨root, hroot, rfl⟩ := Option.map_eq_some_iff.mp hpath
    rw [hroot] at hpath'
    exact ⟨root, hwrites, hroot, (houtput root .typed).mp (Option.some.inj hpath').symm⟩
  · rintro ⟨root, hwrites, hroot, hcollide⟩
    rw [if_pos hwrites, if_pos hwrites, hroot]
    exact ⟨_, rfl, congrArg some ((houtput root .typed).mpr hcollide).symm⟩

/-- Two stories whose names are the ending once and twice, and two on a drive, each pair with one script. -/
theorem outputs_shared_iff_hidden :
    ("/p/src/.st" ≠ "/p/src/.st.st" ∧
      output "/p/src/.st" "/p/src" "/p/dist" .script = output "/p/src/.st.st" "/p/src" "/p/dist" .script) ∧
    ("/p/src/x.st" ≠ "/p/src/C:/d/x.st" ∧
      output "/p/src/x.st" "/p/src" "C:/d" .script = output "/p/src/C:/d/x.st" "/p/src" "C:/d" .script) := by
  have hsource : isRooted "/p/src" = true := by decide
  constructor
  · have hne : "/p/src/.st" ≠ "/p/src/.st.st" := by decide
    have h : LiesAt "/p/src" "/p/src/.st" ([] ++ ["" ++ FileKind.story.ending]) :=
      ⟨by decide +kernel, by decide +kernel, by decide +kernel⟩
    have h' : LiesAt "/p/src" "/p/src/.st.st" ([] ++ [".st" ++ FileKind.story.ending]) :=
      ⟨by decide +kernel, by decide +kernel, by decide +kernel⟩
    exact ⟨hne, ((outputs_shared_iff h h' hsource hne).1 "/p/dist" .script).mpr
      (.inl ⟨rfl, .inl ⟨rfl, rfl⟩⟩)⟩
  · have hne : "/p/src/x.st" ≠ "/p/src/C:/d/x.st" := by decide
    have h : LiesAt "/p/src" "/p/src/x.st" ([] ++ ["x" ++ FileKind.story.ending]) :=
      ⟨by decide +kernel, by decide +kernel, by decide +kernel⟩
    have h' : LiesAt "/p/src" "/p/src/C:/d/x.st" (["C:", "d"] ++ ["x" ++ FileKind.story.ending]) :=
      ⟨by decide +kernel, by decide +kernel, by decide +kernel⟩
    have hretraces : Retraces "C:/d" ["C:", "d"] [] := by
      refine ⟨⟨'C', ["d"], by decide, by decide⟩, ?_, by decide +kernel⟩
      rintro ⟨letter, more, -, hnil⟩
      cases hnil
    exact ⟨hne, ((outputs_shared_iff h h' hsource hne).1 "C:/d" .script).mpr
      (.inr ⟨rfl, .inr hretraces⟩)⟩

end

end Story.Path
