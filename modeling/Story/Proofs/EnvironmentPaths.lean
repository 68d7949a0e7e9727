import Story.Proofs.OutputPaths
import Story.Settings.Basic

/-!
# Where the environment of a script is

The settings of a project may name the environment of its scripts by a relative path. The path is meant from
the directory that the settings are in, so it is followed from there when the settings are read, and what comes out
is made into a specifier when a script is written. Both times the text alone decides whether it is a path or
the name of a package, and in between it has been brought into normal form.

* `Normal.ofText_text` — the text of a normal form is read back as the same path, if the root that is seen in the
  text is the root that was meant;
* `ofText_withSlash_directory` — so is the directory of any file;
* `combine_directory` — hence a relative path in the settings comes out as the text of the place that it leads to
  from the directory of the settings;
* `isRelativeSpecifier_text_iff` — the text of such a place says that it is a path only if the place is rooted or
  leads out: the `./` in front of all others is not part of a normal form.

`environment_stays_path_iff` puts these together: settings that are named by a relative path, as in a project that
is compiled from its own directory, turn an environment beside them into a package.
-/

namespace Story.Path

/-! ### Reading a directory back -/

/-- **The text of a normal form is read back** if the root that is seen in it is the one that was meant. -/
theorem Normal.ofText_text {p : Path} (h : Normal p) (hroot : (ofText p.text).root = p.root) :
    ofText p.text = p := by
  have hslashed := slashed_eq_self h.backslash_notMem_text
  rw [root_ofText, hslashed] at hroot
  rw [ofText_eq_follow, hslashed, hroot]
  obtain ⟨hsplit, -⟩ := splitRoot_spec p.text.toList
  rw [hroot] at hsplit
  by_cases hnone : p.root = .nowhere ∧ p.segments = []
  · -- Nothing is written as a dot, which leads nowhere.
    have htext : p.text = "." := if_pos hnone
    rw [htext]
    obtain ⟨root, segments⟩ := p
    obtain ⟨rfl, rfl⟩ : root = .nowhere ∧ segments = [] := hnone
    decide
  · -- What comes after the root is the segments, joined.
    have htext : p.text = p.root.text ++ "/".intercalate p.segments := if_neg hnone
    have hrest : (splitRoot p.text.toList).2 = ("/".intercalate p.segments).toList := by
      rw [htext, String.toList_append] at hsplit
      rw [htext, String.toList_append]
      exact List.append_cancel_left hsplit
    rw [hrest]
    by_cases hempty : p.segments = []
    · rw [hempty, String.intercalate_nil, String.toList_empty, stretches_nil, follow_nothing, ← hempty]
    · rw [h.stretches_join hempty]
      exact h.follow_self

/-- A root is seen in the text for what it is. -/
theorem Normal.root_ofText_text {p : Path} (h : Normal p) (hroot : p.root ≠ .nowhere) :
    (ofText p.text).root = p.root := by
  rw [root_ofText, slashed_eq_self h.backslash_notMem_text, h.splitRoot_text hroot]

/-- A path with names ends in the last of them, and so a slash is still to come. -/
theorem Normal.withSlash_text {p : Path} (h : Normal p) (hne : p.segments ≠ []) :
    withSlash p.text = p.text ++ "/" := by
  obtain rfl | ⟨-, hnil, -⟩ | ⟨-, front, last, htext, hlast⟩ := h.text_cases
  · exact absurd rfl hne
  · exact absurd hnil hne
  · have hchars : last.toList ≠ [] := by simpa using hlast.nonempty
    -- The last character belongs to a name, and names have no separators.
    have hend : p.text.toList.getLast?.any isSeparator = false := by
      rw [htext, String.toList_append, List.getLast?_append_of_ne_nil _ hchars,
        List.getLast?_eq_getLast_of_ne_nil hchars, Option.any_some]
      exact hlast.unbroken _ (List.getLast_mem hchars)
    rw [withSlash, hend]
    rfl

theorem root_parent (p : Path) : p.parent.root = p.root := rfl

theorem Normal.parent {p : Path} (h : Normal p) : Normal p.parent := by
  obtain ⟨root, segments⟩ := p
  obtain rfl | ⟨before, last, rfl⟩ := List.eq_nil_or_concat' segments
  · exact h
  · rw [Path.parent, List.dropLast_concat]
    exact h.of_append

/-- The text of a path goes on after its directory, unless that is where the path starts. -/
theorem Normal.exists_text_eq {p : Path} (h : Normal p) (hne : p.parent.segments ≠ []) :
    ∃ last, p.text = withSlash p.parent.text ++ last := by
  have hslash := h.parent.withSlash_text hne
  obtain ⟨root, segments⟩ := p
  obtain rfl | ⟨before, last, rfl⟩ := List.eq_nil_or_concat' segments
  · exact absurd rfl hne
  · -- The directory is the path without its last name.
    have hparent : (⟨root, before ++ [last]⟩ : Path).parent = ⟨root, before⟩ := by
      rw [Path.parent, List.dropLast_concat]
    rw [hparent] at hne hslash
    refine ⟨last, ?_⟩
    rw [hparent, hslash, text_of_ne fun _ => hne, text_of_ne fun _ => List.concat_ne_nil last before]
    dsimp only
    rw [String.intercalate_append_of_ne_nil hne (by simp), String.intercalate_singleton]
    simp only [String.append_assoc]

/-- **The directory of a path that is read back is read back.** -/
theorem Normal.ofText_withSlash_parent {p : Path} (h : Normal p) (hback : ofText p.text = p) :
    ofText (withSlash p.parent.text) = p.parent := by
  by_cases hroot : p.root = .nowhere
  · by_cases hempty : p.parent.segments = []
    · have hparent : p.parent = ⟨.nowhere, []⟩ := by
        rw [← hempty, ← hroot]
        rfl
      rw [hparent]
      decide
    · -- If the directory and its slash were read as a drive, the whole path would be on that drive.
      obtain ⟨last, htext⟩ := h.exists_text_eq hempty
      have hslash : (ofText p.text).root = .nowhere := by
        rw [hback]
        exact hroot
      rw [htext, ofText_withSlash_append, root_follow] at hslash
      have hparent : (ofText p.parent.text).root = .nowhere := by
        by_contra hrooted
        exact hrooted (ofText_withSlash hrooted ▸ hslash)
      have hread : ofText p.parent.text = p.parent := h.parent.ofText_text (hparent.trans hroot.symm)
      obtain heq | ⟨letter, -, heq⟩ := ofText_withSlash_of_relative hparent h.parent.canonical.nonempty
      · rw [heq, hread]
      · rw [heq] at hslash
        cases hslash
  · have hread : ofText p.parent.text = p.parent :=
      h.parent.ofText_text (h.parent.root_ofText_text hroot)
    rw [ofText_withSlash, hread]
    rw [hread]
    exact hroot

/-- So is the directory of any file. -/
theorem ofText_withSlash_directory (file : String) :
    ofText (withSlash (directory file)) = (ofText (normalize file)).parent := by
  have hnormal := ofText_normal (normalize file)
  refine hnormal.ofText_withSlash_parent ?_
  have htext : (ofText (normalize file)).text = normalize file :=
    (ofText_normal file).canonical.normalize_eq
  rw [htext]

/-! ### Relative paths in settings -/

/-- What says by its first segment that it is a relative path. -/
def IsRelativeSpecifier (path : String) : Prop :=
  path = ".." ∨ begins "./" path = true ∨ begins "../" path = true

instance (path : String) : Decidable (IsRelativeSpecifier path) :=
  inferInstanceAs (Decidable (_ ∨ _ ∨ _))

/-- A place that can be told from one below the current directory: it starts at a root, or its names are read so,
or it leads out. -/
def LeadsAway (p : Path) : Prop :=
  p.root ≠ .nowhere ∨ StartsAtDrive p.segments ∨ p.segments.head? = some ".."

section

variable {path : String}

/-- **A relative path is followed from the directory of the file** that it stands in. -/
theorem combine_directory (h : begins "./" path = true ∨ begins "../" path = true) (file : String) :
    combine (directory file) path =
      ((ofText (normalize file)).parent.follow (stretches (slashed path).toList)).text := by
  have hdirectory : (directory file).isEmpty = false := by
    rw [Bool.eq_false_iff]
    intro hempty
    exact (ofText_normal (normalize file)).parent.canonical.nonempty (String.isEmpty_iff.mp hempty)
  rw [combine, isRooted_of_begins (.inr h), hdirectory, Bool.or_false, if_neg (by simp), normalize,
    ofText_withSlash_append, ofText_withSlash_directory]

/-- The names of a relative place are read as rooted if and only if they start like a drive. -/
theorem Normal.isRooted_text_iff {p : Path} (h : Normal p) :
    isRooted p.text = true ↔ p.root ≠ .nowhere ∨ StartsAtDrive p.segments := by
  by_cases hroot : p.root = .nowhere
  · rw [or_iff_right (not_not_intro hroot)]
    by_cases hempty : p.segments = []
    · -- The place itself is written as a dot.
      have htext : p.text = "." := if_pos ⟨hroot, hempty⟩
      rw [htext, hempty]
      exact ⟨fun hdot => absurd hdot (by decide), fun hdrive => absurd rfl (ne_nil_of_startsAtDrive hdrive)⟩
    · have htext : p.text = "/".intercalate p.segments := by
        rw [text_of_ne fun _ => hempty, hroot]
        exact String.empty_append
      rw [htext, isRooted_join_iff hempty h.segment]
  · rw [isRooted_iff, h.root_ofText_text hroot]
    exact ⟨fun hrooted => .inl hrooted, fun _ => hroot⟩

/-- A place that starts at no root says that it is a path if and only if it leads out. -/
theorem Normal.isRelativeSpecifier_text_iff {p : Path} (h : Normal p) (hroot : p.root = .nowhere) :
    IsRelativeSpecifier p.text ↔ p.segments.head? = some ".." := by
  by_cases hempty : p.segments = []
  · have htext : p.text = "." := if_pos ⟨hroot, hempty⟩
    rw [htext, hempty]
    decide
  have hstretches := h.stretches_text hempty
  rw [hroot] at hstretches
  constructor
  · -- The first segment is what stands before the first slash.
    rintro (htext | hhere | hout)
    · rw [htext, stretches_of_notMem (by decide)] at hstretches
      rw [← show [".."] = p.segments from hstretches]
      rfl
    · obtain ⟨rest, htext⟩ := begins_iff.mp hhere
      have hfirst : "." ∈ p.segments := by
        rw [← show stretches p.text.toList = p.segments from hstretches, htext,
          show ("./" ++ rest).toList = ".".toList ++ '/' :: rest.toList by simp, stretches_append_slash]
        exact List.mem_append_left _ (by decide)
      exact absurd rfl (h.segment "." hfirst).notHere
    · obtain ⟨rest, htext⟩ := begins_iff.mp hout
      rw [htext, show ("../" ++ rest).toList = "..".toList ++ '/' :: rest.toList by simp,
        stretches_append_slash, stretches_of_notMem (by decide)] at hstretches
      rw [← show [".."] ++ stretches rest.toList = p.segments from hstretches]
      rfl
  · intro hup
    obtain ⟨more, hsegments⟩ := List.head?_eq_some_iff.mp hup
    rw [text_of_ne fun _ => hempty, hroot, hsegments]
    by_cases hmore : more = []
    · subst hmore
      exact .inl (by simp [Root.text])
    · refine .inr (.inr (begins_iff.mpr ⟨"/".intercalate more, ?_⟩))
      rw [String.intercalate_cons_of_ne_nil hmore]
      rfl

theorem Normal.leadsAway_iff {p : Path} (h : Normal p) :
    p.LeadsAway ↔ isRooted p.text = true ∨ IsRelativeSpecifier p.text := by
  rw [h.isRooted_text_iff, or_assoc, LeadsAway]
  by_cases hroot : p.root = .nowhere
  · rw [h.isRelativeSpecifier_text_iff hroot]
  · exact ⟨fun _ => .inl hroot, fun _ => .inl hroot⟩

/-! ### The environment -/

/-- What is taken for a path is rooted or says that it is one. -/
theorem of_isLocal (h : isLocal path = true) : isRooted path = true ∨ IsRelativeSpecifier path := by
  rw [isLocal, Bool.or_assoc, Bool.or_eq_true, Bool.or_eq_true] at h
  exact h.imp_right .inr

/-- All else is taken for a package, and required by its name. -/
theorem environmentSpecifier_package (target : String) (h : ¬isLocal path = true) :
    environmentSpecifier target (some path) = path := if_neg h

/-- What a script requires says that it is a path if and only if the environment is rooted or says so itself. -/
theorem isRelativeSpecifier_environment_iff (target : String) :
    IsRelativeSpecifier (environmentSpecifier target (some path)) ↔
      isRooted path = true ∨ IsRelativeSpecifier path := by
  by_cases hlocal : isLocal path = true
  · have hpath : environmentSpecifier target (some path) = specifier target path := if_pos hlocal
    rw [hpath]
    exact ⟨fun _ => of_isLocal hlocal, fun _ => specifier_shape target path⟩
  · -- A package is not rooted, so it can only say so itself.
    have hrooted : ¬isRooted path = true := by
      intro hrooted
      exact hlocal (by rw [isLocal, hrooted, Bool.true_or, Bool.true_or])
    rw [environmentSpecifier_package target hlocal, or_iff_right hrooted]

/-- The environment that a relative path in the settings stands for, once they have been read. -/
theorem environment_resolve {s : Settings} (hs : s.environment = some path)
    (h : begins "./" path = true ∨ begins "../" path = true) (base : String) :
    (s.resolve base).environment = some (combine base path) := by
  have hbegins : (begins "./" path || begins "../" path) = true := by rw [Bool.or_eq_true]; exact h
  rw [Settings.resolve, hs, Option.map_some, if_pos hbegins]

/-- A rooted path is still rooted in normal form. -/
theorem root_normalize_ne {file : String} (h : isRooted file = true) : (ofText (normalize file)).root ≠ .nowhere := by
  have hroot := isRooted_iff.mp h
  rw [normalize, (ofText_normal file).root_ofText_text hroot]
  exact hroot

/-- **Whether the environment stays a path.** A relative path in the settings leads to a place, seen from the
directory that the settings are in. What a script requires, wherever the script is, says that it is a relative
path if and only if this place is rooted or leads out. For settings at a rooted path it is always rooted. For all
other places the script requires the place by its bare text, which is the name of a package. -/
theorem environment_stays_path_iff (s : Settings) (hs : s.environment = some path)
    (h : begins "./" path = true ∨ begins "../" path = true) (file target : String) :
    let place := (ofText (normalize file)).parent.follow (stretches (slashed path).toList)
    let required := environmentSpecifier target (s.resolve (directory file)).environment
    (IsRelativeSpecifier required ↔ place.LeadsAway) ∧
      (isRooted file = true → IsRelativeSpecifier required) ∧
      (¬place.LeadsAway → required = place.text) := by
  intro place required
  have hnormal : Normal place :=
    (ofText_normal (normalize file)).parent.follow fun _ hs =>
      unbroken_of_mem_stretches (backslash_notMem_slashed path) hs
  have hrequired : required = environmentSpecifier target (some place.text) := by
    simp only [required, environment_resolve hs h, combine_directory h, place]
  have hiff : IsRelativeSpecifier required ↔ place.LeadsAway := by
    rw [hrequired, isRelativeSpecifier_environment_iff, hnormal.leadsAway_iff]
  refine ⟨hiff, fun hrooted => hiff.mpr (.inl ?_), fun haway => ?_⟩
  · rw [root_follow, root_parent]
    exact root_normalize_ne hrooted
  · rw [hnormal.leadsAway_iff] at haway
    rw [hrequired, environmentSpecifier_package target fun hlocal => haway (of_isLocal hlocal)]

/-- With settings that are named from their own directory, the environment beside them becomes a package. With
the same settings at a rooted path it does not. -/
theorem environment_stays_path_iff_beside :
    let s : Settings := ⟨"src", "out", none, true, false, some "./env", none, none, 2⟩
    environmentSpecifier "out" (s.resolve (directory "stsc.json")).environment = "env" ∧
      ¬IsRelativeSpecifier (environmentSpecifier "out" (s.resolve (directory "stsc.json")).environment) ∧
      IsRelativeSpecifier (environmentSpecifier "/p/out" (s.resolve (directory "/p/stsc.json")).environment) := by
  intro s
  have hbegins : begins "./" "./env" = true ∨ begins "../" "./env" = true := by decide
  obtain ⟨hiff, -, hbare⟩ := environment_stays_path_iff s rfl hbegins "stsc.json" "out"
  obtain ⟨-, hrooted, -⟩ := environment_stays_path_iff s rfl hbegins "/p/stsc.json" "/p/out"
  have hplace : (ofText (normalize "stsc.json")).parent.follow (stretches (slashed "./env").toList) =
      ⟨.nowhere, ["env"]⟩ := by decide +kernel
  have hnear : ¬LeadsAway ⟨.nowhere, ["env"]⟩ := by
    rintro (hroot | ⟨letter, second, more, -, hnames⟩ | hup)
    · exact hroot rfl
    · exact absurd (congrArg List.length hnames) (by simp)
    · exact absurd hup (by decide)
  rw [hplace] at hiff hbare
  exact ⟨hbare hnear, fun hrequired => hnear (hiff.mp hrequired), hrooted (by decide)⟩

end

end Story.Path
