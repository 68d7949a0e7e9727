import Story.Emit
import Story.Proofs.Declarations
import Story.Proofs.NormalPaths

/-!
# Paths from one place to another

`Path.relative` tells the way from one directory to another, and `Path.combine` follows a way from a
directory. Both work on texts, and each of them looks for a root in the text that it is given.

* `follow_steps` — the way out to what two paths share and from there on leads from the one to the other, if
  both start at one root. This is about paths taken apart;
* `ofText_withSlash_append` — a directory with its slash and a path after it are read by following the path
  from the directory. With these two, the relative path leads back when it is followed segment by segment
  (`follow_relative`);
* `isRooted_join_iff` — a relative path may look like a rooted one: its names start like a drive
  (`StartsAtDrive`), and `combine` goes to the drive;
* `specifier_resolves` — a specifier starts with a dot, so this cannot happen to it, and a script
  that requires its environment by a specifier gets the module that was configured.
-/

namespace Story.Path

variable {root : Root} {p q : Path} {names : List String}

/-! ### Going along names -/

@[simp] theorem below_nil (p : Path) : p.below [] = p := by simp [below]

theorem below_below (p : Path) (names names' : List String) :
    (p.below names).below names' = p.below (names ++ names') := by simp [below]

/-- Names other than `..` lead further down. -/
theorem follow_names (p : Path) (hnames : ∀ s ∈ names, IsSegment s) (hup : ".." ∉ names) :
    p.follow names = p.below names := by
  induction names generalizing p with
  | nil => simp
  | cons s names ih =>
    obtain ⟨hs, hnames⟩ := List.forall_mem_cons.mp hnames
    rw [List.mem_cons, not_or] at hup
    rw [follow_cons, go_name p hs.nonempty hs.notHere (Ne.symm hup.1), ih _ hnames hup.2, below_below,
      List.singleton_append]

/-- As many `..` lead back over as many names. -/
theorem follow_up (root : Root) (segments : List String) {out : List String} (h : ".." ∉ out) :
    (⟨root, segments ++ out⟩ : Path).follow (.replicate out.length "..") = ⟨root, segments⟩ := by
  induction out using List.reverseRecOn with
  | nil => simp
  | append_singleton out last ih =>
    simp only [List.mem_append, List.mem_singleton, not_or] at h
    rw [List.length_append, List.length_singleton, List.replicate_succ, follow_cons, ← List.append_assoc,
      go_up _ _ (Ne.symm h.2), ih h.1]

/-- The steps between two lists of names lead out to what they share and from there on. -/
theorem steps_spec (names names' : List String) :
    ∃ shared out into, names = shared ++ out ∧ names' = shared ++ into ∧
      steps names names' = .replicate out.length ".." ++ into := by
  induction names generalizing names' with
  | nil => exact ⟨[], [], names', rfl, rfl, by simp [steps]⟩
  | cons s names ih =>
    cases names' with
    | nil => exact ⟨[], s :: names, [], rfl, rfl, by simp [steps, List.replicate_succ]⟩
    | cons s' names' =>
      by_cases hs : s = s'
      · -- One more name is shared.
        obtain ⟨shared, out, into, rfl, rfl, hsteps⟩ := ih names'
        exact ⟨s :: shared, out, into, rfl, by rw [hs]; rfl, by rw [steps, if_pos hs, hsteps]⟩
      · exact ⟨[], s :: names, s' :: names', rfl, rfl, by simp [steps, hs, List.replicate_succ]⟩

theorem steps_append (names into : List String) : steps names (names ++ into) = into := by
  induction names with
  | nil => cases into <;> rfl
  | cons s names ih => simp [steps, ih]

/-- **The steps lead there,** from a root on. -/
theorem follow_steps (hp : Normal p) (hq : Normal q) (hroot : p.root = q.root) (hrooted : q.root ≠ .nowhere) :
    p.follow (steps p.segments q.segments) = q := by
  obtain ⟨root, segments⟩ := p
  obtain ⟨root', segments'⟩ := q
  obtain rfl : root = root' := hroot
  obtain ⟨shared, out, into, rfl, rfl, hsteps⟩ := steps_spec segments segments'
  -- After a root there is no `..`, so the way out leaves names and the way in enters them.
  have hout : ".." ∉ out := fun hup => hp.rooted hrooted (List.mem_append_right _ hup)
  have hinto : ".." ∉ into := fun hup => hq.rooted hrooted (List.mem_append_right _ hup)
  rw [hsteps, follow_append, follow_up root shared hout, follow_names _ _ hinto]
  · rfl
  · exact fun s hs => hq.segment s (List.mem_append_right _ hs)

/-- With one root, it makes no difference whether a drive counts as a name. -/
theorem steps_names (hroot : p.root = q.root) : steps p.names q.names = steps p.segments q.segments := by
  unfold Path.names
  rw [← hroot]
  cases p.root <;> simp [steps]

/-! ### Reading one path after another -/

theorem follow_nothing (p : Path) : p.follow [""] = p := go_here p (.inl rfl)

/-- A slash in the middle of a path parts what is before it from what is after it. -/
theorem follow_stretches_append_slash (p : Path) (cs cs' : List Char) :
    p.follow (stretches (cs ++ '/' :: cs')) = (p.follow (stretches cs)).follow (stretches cs') := by
  rw [stretches_append_slash, follow_append]

/-- A slash at the end leads nowhere. -/
theorem follow_stretches_slash (p : Path) (cs : List Char) :
    p.follow (stretches (cs ++ ['/'])) = p.follow (stretches cs) := by
  rw [follow_stretches_append_slash, stretches_nil, follow_nothing]

/-- What comes after a slash does not change the root. -/
theorem splitRoot_append_slash (cs more : List Char) :
    splitRoot (cs ++ '/' :: more) = ((splitRoot (cs ++ ['/'])).1, (splitRoot (cs ++ ['/'])).2 ++ more) := by
  rcases cs with _ | ⟨c, cs⟩
  · rfl
  simp only [List.cons_append, splitRoot_cons]
  -- Whether a drive goes on with `:/` is settled before the text goes on.
  have hdrive : [':', '/'] <+: cs ++ '/' :: more ↔ [':', '/'] <+: cs ++ ['/'] := by
    rcases cs with _ | ⟨d, _ | ⟨e, cs⟩⟩ <;> simp
  by_cases hslash : c = '/'
  · simp [hslash]
  by_cases hletter : c.isAlpha = true ∧ [':', '/'] <+: cs ++ ['/']
  · rw [if_neg hslash, if_neg hslash, if_pos hletter, if_pos ⟨hletter.1, hdrive.mpr hletter.2⟩]
    rcases cs with _ | ⟨d, cs⟩
    · simp at hletter
    · rcases cs with _ | ⟨e, cs⟩ <;> simp
  · rw [if_neg hslash, if_neg hslash, if_neg hletter, if_neg fun h => hletter ⟨h.1, hdrive.mp h.2⟩]
    simp

/-- The text of a directory with its slash. -/
theorem slashed_withSlash (base : String) :
    ∃ before, (slashed (withSlash base)).toList = before ++ ['/'] ∧
      (withSlash base = base ∨ before = (slashed base).toList) := by
  unfold withSlash
  split
  · next hlast =>
    obtain ⟨c, hc, hseparator⟩ := (Option.any_eq_true _ _).mp hlast
    obtain ⟨before, hbefore⟩ := List.getLast?_eq_some_iff.mp hc
    -- A separator at the end is a slash, or is read as one.
    have hslash : (if c = '\\' then '/' else c) = '/' := by
      have hc : c = '/' ∨ c = '\\' := by simpa [isSeparator] using hseparator
      obtain rfl | rfl := hc <;> rfl
    refine ⟨before.map fun c => if c = '\\' then '/' else c, ?_, .inl rfl⟩
    rw [slashed, hbefore, List.map_append, List.map_singleton, hslash, String.toList_ofList]
  · refine ⟨(slashed base).toList, ?_, .inr rfl⟩
    rw [slashed_append, String.toList_append]
    rfl

/-- **Following a path from a directory:** what lies between the slashes of the path is followed from there. -/
theorem ofText_withSlash_append (base path : String) :
    ofText (withSlash base ++ path) = (ofText (withSlash base)).follow (stretches (slashed path).toList) := by
  obtain ⟨before, hbefore, -⟩ := slashed_withSlash base
  have htext : (slashed (withSlash base ++ path)).toList = before ++ '/' :: (slashed path).toList := by
    rw [slashed_append, String.toList_append, hbefore, List.append_assoc, List.singleton_append]
  have hsplit := (splitRoot_spec (before ++ ['/'])).1
  rw [ofText_eq_follow, ofText_eq_follow (withSlash base), htext, hbefore, splitRoot_append_slash]
  generalize (splitRoot (before ++ ['/'])).1 = root at *
  generalize (splitRoot (before ++ ['/'])).2 = rest at *
  -- The slash at the end of the directory is that of its root or comes after it.
  obtain rfl | ⟨rest, last, rfl⟩ := List.eq_nil_or_concat' rest
  · rw [List.nil_append, stretches_nil, follow_nothing]
  · rw [← List.append_assoc] at hsplit
    obtain rfl : last = '/' := List.singleton_inj.mp (List.append_inj' hsplit rfl).2
    rw [List.append_assoc, List.singleton_append, follow_stretches_append_slash, follow_stretches_slash]

/-- From a root on, a slash at the end makes no difference. -/
theorem ofText_withSlash {base : String} (h : (ofText base).root ≠ .nowhere) :
    ofText (withSlash base) = ofText base := by
  obtain ⟨before, hbefore, heq | rfl⟩ := slashed_withSlash base
  · rw [heq]
  obtain ⟨hsplit, hproper⟩ := splitRoot_spec (slashed base).toList
  have hroot : (splitRoot (slashed base).toList).1 ≠ .nowhere := by
    rw [← root_ofText]
    exact h
  rw [ofText_eq_follow, ofText_eq_follow base, hbefore]
  -- The root is seen before the slash that was added, and then the slash leads nowhere.
  nth_rewrite 1 2 [← hsplit]
  rw [List.append_assoc, splitRoot_append hroot hproper, follow_stretches_slash]

/-! ### Relative paths -/

theorem isRooted_iff {path : String} : isRooted path = true ↔ (ofText path).root ≠ .nowhere :=
  decide_eq_true_iff

/-- Names that a reader takes for a drive and names on it. -/
def StartsAtDrive (names : List String) : Prop :=
  ∃ letter second more, letter.isAlpha = true ∧ names = String.ofList [letter, ':'] :: second :: more

theorem ne_nil_of_startsAtDrive (h : StartsAtDrive names) : names ≠ [] := by
  obtain ⟨letter, second, more, -, rfl⟩ := h
  exact List.cons_ne_nil _ _

theorem backslash_notMem_join (h : ∀ s ∈ names, IsSegment s) : '\\' ∉ ("/".intercalate names).toList := by
  intro hmem
  obtain hslash | ⟨s, hs, hc⟩ := mem_join hmem
  · cases hslash
  · exact (h s hs).backslash_notMem hc

/-- Joined names are read as rooted if and only if they start like a drive. -/
theorem isRooted_join_iff (hne : names ≠ []) (h : ∀ s ∈ names, IsSegment s) :
    isRooted ("/".intercalate names) = true ↔ StartsAtDrive names := by
  have hstretches := stretches_join hne fun s hs => (h s hs).slash_notMem
  have hroot : (ofText ("/".intercalate names)).root = (splitRoot ("/".intercalate names).toList).1 := by
    rw [root_ofText, slashed_eq_self (backslash_notMem_join h)]
  rw [isRooted_iff, hroot]
  constructor
  · intro hrooted
    -- The root is seen in the text, so what it puts before its slash is the first name.
    obtain ⟨hsplit, hproper⟩ := splitRoot_spec ("/".intercalate names).toList
    rw [← hsplit, stretches_root_append hproper] at hstretches
    cases hr : (splitRoot ("/".intercalate names).toList).1 with
    | nowhere => exact absurd hr hrooted
    | slash =>
      rw [hr] at hstretches
      exact absurd rfl (h "" (by rw [← hstretches]; exact List.mem_cons_self)).nonempty
    | drive letter =>
      rw [hr] at hstretches
      obtain ⟨second, more, hrest⟩ := List.exists_cons_of_ne_nil
        (stretches_ne_nil (splitRoot ("/".intercalate names).toList).2)
      exact ⟨letter, second, more, hproper letter hr, by rw [← hstretches, hrest]; rfl⟩
  · -- The slash after the first name makes it a drive.
    rintro ⟨letter, second, more, hletter, rfl⟩
    have hproper : (Root.drive letter).Proper := fun letter' heq => by cases heq; exact hletter
    have htext : ("/".intercalate (String.ofList [letter, ':'] :: second :: more)).toList =
        (Root.drive letter).text.toList ++ ("/".intercalate (second :: more)).toList := by
      rw [String.intercalate_cons_cons]
      simp [Root.text]
    rw [htext, splitRoot_append (by simp) hproper]
    simp

section

variable {source target : String}

/-- The names on the way from one directory to another are segments. -/
theorem isSegment_steps (source target : String) :
    ∀ s ∈ steps (ofText source).segments (ofText target).segments, IsSegment s := by
  obtain ⟨shared, out, into, -, htarget, hsteps⟩ := steps_spec (ofText source).segments (ofText target).segments
  rw [hsteps]
  intro s hs
  obtain hs | hs := List.mem_append.mp hs
  · rw [List.eq_of_mem_replicate hs]
    exact ⟨by decide, by decide, by simp [isSeparator]⟩
  · exact (ofText_normal target).segment s (by rw [htarget]; exact List.mem_append_right _ hs)

theorem relative_eq (hroot : (ofText source).root = (ofText target).root) :
    relative source target =
      if steps (ofText source).segments (ofText target).segments = [] then "."
      else "/".intercalate (steps (ofText source).segments (ofText target).segments) := by
  unfold relative
  rw [steps_names hroot]

theorem backslash_notMem_relative (hroot : (ofText source).root = (ofText target).root) :
    '\\' ∉ (relative source target).toList := by
  rw [relative_eq hroot]
  split
  · decide
  · exact backslash_notMem_join (isSegment_steps source target)

/-- **The relative path leads there,** when it is followed segment by segment. -/
theorem follow_relative (hroot : (ofText source).root = (ofText target).root)
    (hrooted : (ofText target).root ≠ .nowhere) :
    (ofText source).follow (stretches (relative source target).toList) = ofText target := by
  have hsteps := follow_steps (ofText_normal source) (ofText_normal target) hroot hrooted
  rw [relative_eq hroot]
  split
  · next hnil =>
    -- The two places are the same, and the way is `.`.
    rw [hnil] at hsteps
    rw [stretches_of_notMem (by decide), follow_cons, go_here _ (.inr rfl)]
    exact hsteps
  · next hne =>
    rw [stretches_join hne fun s hs => (isSegment_steps source target s hs).slash_notMem]
    exact hsteps

/-- A path that is not read as rooted is followed from the directory. -/
theorem combine_eq_of_follow {path : String} (hsource : (ofText source).root ≠ .nowhere)
    (hpath : isRooted path = false) (hslashed : '\\' ∉ path.toList)
    (hfollow : (ofText source).follow (stretches path.toList) = ofText target) :
    combine source path = normalize target := by
  -- A directory that is rooted has a text.
  have hne : source.isEmpty = false := by
    rw [Bool.eq_false_iff]
    intro hempty
    rw [String.isEmpty_iff.mp hempty] at hsource
    exact hsource rfl
  rw [combine, hpath, hne, Bool.or_false, if_neg (by simp), normalize, ofText_withSlash_append,
    ofText_withSlash hsource, slashed_eq_self hslashed, hfollow, normalize]

/-! ### Specifiers -/

/-- What starts with a dot starts at no root. -/
theorem isRooted_dot (rest : String) : isRooted ("." ++ rest) = false := by
  have hroot : (ofText ("." ++ rest)).root = .nowhere := by
    have htext : (slashed ("." ++ rest)).toList = '.' :: (slashed rest).toList := by simp [slashed]
    rw [root_ofText, htext, splitRoot_cons, if_neg (by decide), if_neg fun h => absurd h.1 (by decide)]
  exact Bool.eq_false_iff.mpr fun hrooted => isRooted_iff.mp hrooted hroot

theorem begins_iff {head text : String} : begins head text = true ↔ ∃ rest, text = head ++ rest := by
  unfold begins
  rw [List.isPrefixOf_iff_prefix]
  constructor
  · rintro ⟨rest, hrest⟩
    exact ⟨String.ofList rest, String.ext (by simp [hrest])⟩
  · rintro ⟨rest, rfl⟩
    exact ⟨rest.toList, by simp⟩

/-- A specifier is a relative path that leads out, or one with `./` before it. -/
theorem specifier_cases (source target : String) :
    (specifier source target = relative source target ∧
        (relative source target = ".." ∨ begins "../" (relative source target) = true)) ∨
      specifier source target = "./" ++ relative source target := by
  unfold specifier
  dsimp only
  split
  · next h =>
    refine .inl ⟨rfl, ?_⟩
    simpa [or_comm] using h
  · exact .inr rfl

/-- A specifier says by its first segment that it is a path. -/
theorem specifier_shape (source target : String) :
    specifier source target = ".." ∨ begins "./" (specifier source target) = true ∨
      begins "../" (specifier source target) = true := by
  obtain ⟨heq, hout | hout⟩ | heq := specifier_cases source target
  · exact .inl (heq.trans hout)
  · exact .inr (.inr (heq ▸ hout))
  · exact .inr (.inl (begins_iff.mpr ⟨_, heq⟩))

/-- What says so by its first segment is not taken for a rooted path. -/
theorem isRooted_of_begins {path : String}
    (h : path = ".." ∨ begins "./" path = true ∨ begins "../" path = true) : isRooted path = false := by
  -- All three start with a dot, which is neither a slash nor a letter.
  have hdot : ∃ rest, path = "." ++ rest := by
    obtain rfl | hhere | hout := h
    · exact ⟨".", rfl⟩
    · obtain ⟨rest, rfl⟩ := begins_iff.mp hhere
      exact ⟨"/" ++ rest, by rw [← String.append_assoc]; rfl⟩
    · obtain ⟨rest, rfl⟩ := begins_iff.mp hout
      exact ⟨"./" ++ rest, by rw [← String.append_assoc]; rfl⟩
  obtain ⟨rest, rfl⟩ := hdot
  exact isRooted_dot rest

theorem isRooted_specifier (source target : String) : isRooted (specifier source target) = false :=
  isRooted_of_begins (specifier_shape source target)

theorem backslash_notMem_specifier (hroot : (ofText source).root = (ofText target).root) :
    '\\' ∉ (specifier source target).toList := by
  have hslashed := backslash_notMem_relative hroot
  obtain ⟨heq, -⟩ | heq := specifier_cases source target
  · rw [heq]
    exact hslashed
  · rw [heq, String.toList_append, List.mem_append, not_or]
    exact ⟨by decide, hslashed⟩

/-- A `./` in front makes no difference to where a path leads. -/
theorem follow_specifier (source target : String) (p : Path) :
    p.follow (stretches (specifier source target).toList) =
      p.follow (stretches (relative source target).toList) := by
  obtain ⟨heq, -⟩ | heq := specifier_cases source target
  · rw [heq]
  · have htext : ("./" ++ relative source target).toList =
        ".".toList ++ '/' :: (relative source target).toList := by simp
    rw [heq, htext, follow_stretches_append_slash, stretches_of_notMem (by decide), follow_cons,
      go_here p (.inr rfl), follow_nil]

/-- The first statement of a script requires its environment. -/
theorem emit_script_starts (o : EmitOptions) (r : EmitRequest) (text : String) :
    ∃ rest, (emit o r text).script =
      "const environment = require(" ++
        quoteName (environmentSpecifier (directory r.target) r.environment) ++ ");" ++ rest := by
  have hgenerated (o : ScriptOptions) (m : Module) :
      ∃ rest, (generate o m).script = "const environment = require(" ++ quoteName o.environment ++ ");" ++ rest := by
    rw [generate_script, ScriptOptions.header, ScriptOptions.opening, List.map_append, List.map_cons,
      List.cons_append, String.join_cons, String.append_assoc, String.append_assoc]
    exact ⟨_, rfl⟩
  unfold emit
  dsimp only
  split
  · obtain ⟨rest, hrest⟩ := hgenerated _ _
    rw [hrest, String.append_assoc]
    exact ⟨_, rfl⟩
  · exact hgenerated _ _

/-- A rooted environment is required by its specifier. -/
theorem environmentSpecifier_rooted (source : String) (h : isRooted target = true) :
    environmentSpecifier source (some target) = specifier source target :=
  if_pos (by rw [isLocal, h, Bool.true_or, Bool.true_or])

/-- **A specifier leads to its module.** Between two places at one root it is `..` or starts with `./` or
`../`, so that it is a path and no name of a package, and it is not taken for a rooted one. It has no
backslash, and followed from the directory it leads to the module and nowhere else. This is what a script in
the directory requires as its environment, in the first of its statements. -/
theorem specifier_resolves (hroot : (ofText source).root = (ofText target).root)
    (hrooted : isRooted target = true) :
    (specifier source target = ".." ∨ begins "./" (specifier source target) = true ∨
        begins "../" (specifier source target) = true) ∧
      isRooted (specifier source target) = false ∧
      '\\' ∉ (specifier source target).toList ∧
      combine source (specifier source target) = normalize target ∧
      ∀ (o : EmitOptions) (r : EmitRequest) (text : String),
        directory r.target = source → r.environment = some target →
          ∃ rest, (emit o r text).script =
            "const environment = require(" ++ quoteName (specifier source target) ++ ");" ++ rest := by
  have htarget := isRooted_iff.mp hrooted
  have hsource : (ofText source).root ≠ .nowhere := by
    rw [hroot]
    exact htarget
  have hslashed := backslash_notMem_specifier hroot
  have hunrooted := isRooted_specifier source target
  refine ⟨specifier_shape source target, hunrooted, hslashed, ?_,
    fun o r text hdirectory henvironment => ?_⟩
  · refine combine_eq_of_follow hsource hunrooted hslashed ?_
    rw [follow_specifier, follow_relative hroot htarget]
  · obtain ⟨rest, hrest⟩ := emit_script_starts o r text
    rw [hdirectory, henvironment, environmentSpecifier_rooted source hrooted] at hrest
    exact ⟨rest, hrest⟩

/-- The way into a directory that is named like a drive. -/
theorem specifier_resolves_drive :
    (ofText "/p\\out/./a/").root = (ofText "/p/out/a/C:/..x").root ∧ isRooted "/p/out/a/C:/..x" = true ∧
      specifier "/p\\out/./a/" "/p/out/a/C:/..x" = "./C:/..x" ∧
      combine "/p\\out/./a/" "./C:/..x" = normalize "/p/out/a/C:/..x" := by
  have hroot : (ofText "/p\\out/./a/").root = (ofText "/p/out/a/C:/..x").root := by decide
  have hrooted : isRooted "/p/out/a/C:/..x" = true := by decide
  have hpath : specifier "/p\\out/./a/" "/p/out/a/C:/..x" = "./C:/..x" := by decide +kernel
  exact ⟨hroot, hrooted, hpath, hpath ▸ (specifier_resolves hroot hrooted).2.2.2.1⟩

end

end Story.Path
