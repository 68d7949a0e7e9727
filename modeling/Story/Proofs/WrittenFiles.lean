import Story.Host.Memory
import Story.Project.Compile
import Story.Proofs.Filling
import Story.Proofs.Reports

/-!
# Which files were written

The files of a story are written one after the other, up to the first that cannot be written. What came of
it is told by a `FileReport`: a list of the files that were written, and a diagnostic about the one that was
not. This file compares the report with what happened, on any host whose writes may succeed or fail.

* `Host.recorded` — a host that keeps a record of the files it was asked to write, and of what came of each;
* `Tries` — files are tried in their order, up to the first failure. Writing leaves such a record and does
  not depend on it (`writeFiles_recorded`);
* `FileReport.Accounts` — what a report tells about such a record. The list of written files is right if no
  write failed or if the very first one did. If a later one failed it is empty, although files were written;
* `Settings.compileFile_accounts` — every report about a story gives this account.
-/

namespace Story

/-! ### A record of the writes -/

/-- A file that was to be written, and why it was not, if so. -/
structure Attempt where
  /-- The file. -/
  file : OutputFile
  /-- Why it was not written. -/
  error? : Option HostError
deriving DecidableEq

namespace Attempt

/-- Whether the file was written. -/
def isSuccess (a : Attempt) : Bool := a.error?.isNone

/-- The failure to write the file. -/
def failure? (a : Attempt) : Option Failure :=
  a.error?.map fun e => .unwritable a.file.path e.message

end Attempt

section Record

variable {σ α : Type}

/-- Why there is no result. -/
def errorOf? : Except HostError α → Option HostError
  | .ok _ => none
  | .error e => some e

/-- Act on a state that has a record beside it. -/
def besideRecord (x : StateM σ α) : StateM (σ × List Attempt) α :=
  fun s => ((x s.1).1, ((x s.1).2, s.2))

/-- The host with a record of all files that it was asked to write. -/
def Host.recorded (host : Host (StateM σ)) : Host (StateM (σ × List Attempt)) where
  readText path := besideRecord (host.readText path)
  writeText path text := fun s =>
    let answer := host.writeText path text s.1
    (answer.1, (answer.2, s.2 ++ [⟨⟨path, text⟩, errorOf? answer.1⟩]))
  filesUnder skips path := besideRecord (host.filesUnder skips path)
  runTool tool arguments := besideRecord (host.runTool tool arguments)

/-! ### Writing up to the first failure -/

/-- `Tries files attempts failure`: of `files` those in `attempts` were tried, in their order, until all were
written or `failure` came up. -/
inductive Tries : List OutputFile → List Attempt → Option Failure → Prop where
  | done : Tries [] [] none
  | failed (f : OutputFile) (rest : List OutputFile) (e : HostError) :
      Tries (f :: rest) [⟨f, some e⟩] (some (.unwritable f.path e.message))
  | written (f : OutputFile) {rest : List OutputFile} {attempts : List Attempt} {failure : Option Failure}
      (h : Tries rest attempts failure) : Tries (f :: rest) (⟨f, none⟩ :: attempts) failure

section Steps

variable {host : Host (StateM σ)} {f : OutputFile} {s s' : σ}

theorem writeFiles_of_error {e : HostError} (h : host.writeText f.path f.text s = (.error e, s'))
    (rest : List OutputFile) :
    writeFiles host (f :: rest) s = (some (.unwritable f.path e.message), s') := by
  change (host.writeText f.path f.text >>= _) s = _
  simp only [bind, StateT.bind, h]
  rfl

theorem writeFiles_of_ok {u : Unit} (h : host.writeText f.path f.text s = (.ok u, s'))
    (rest : List OutputFile) : writeFiles host (f :: rest) s = writeFiles host rest s' := by
  change (host.writeText f.path f.text >>= _) s = _
  simp only [bind, StateT.bind, h]

theorem recorded_writeText {answer : Except HostError Unit} (h : host.writeText f.path f.text s = (answer, s'))
    (record : List Attempt) :
    host.recorded.writeText f.path f.text (s, record) = (answer, (s', record ++ [⟨f, errorOf? answer⟩])) := by
  simp only [Host.recorded, h]

end Steps

/-- **Writing leaves a record.** The record changes nothing else, and what is added to it are the files that
were tried. -/
theorem writeFiles_recorded (host : Host (StateM σ)) (files : List OutputFile) (s : σ) (record : List Attempt) :
    ∃ attempts, writeFiles host.recorded files (s, record) =
        ((writeFiles host files s).1, ((writeFiles host files s).2, record ++ attempts)) ∧
      Tries files attempts (writeFiles host files s).1 := by
  induction files generalizing s record with
  | nil => exact ⟨[], by rw [List.append_nil]; rfl, .done⟩
  | cons f rest ih =>
    rcases hwrite : host.writeText f.path f.text s with ⟨e | u, s'⟩
    · -- Nothing is tried after a failure.
      rw [writeFiles_of_error hwrite, writeFiles_of_error (recorded_writeText hwrite record)]
      exact ⟨_, rfl, .failed f rest e⟩
    · rw [writeFiles_of_ok hwrite, writeFiles_of_ok (recorded_writeText hwrite record)]
      obtain ⟨attempts, hrun, htries⟩ := ih s' (record ++ [⟨f, none⟩])
      refine ⟨⟨f, none⟩ :: attempts, ?_, .written f htries⟩
      rw [errorOf?, hrun, List.append_assoc, List.singleton_append]

namespace Tries

variable {files : List OutputFile} {attempts : List Attempt} {failure : Option Failure}

theorem isPrefix (h : Tries files attempts failure) : attempts.map Attempt.file <+: files := by
  induction h with
  | done => exact List.nil_prefix
  | failed f rest e => exact ⟨rest, rfl⟩
  | written f h ih => exact List.cons_prefix_cons.mpr ⟨rfl, ih⟩

/-- Only the last file may have failed. -/
theorem isSuccess_of_mem_dropLast (h : Tries files attempts failure) : ∀ a ∈ attempts.dropLast, a.isSuccess := by
  induction h with
  | done | failed => simp
  | @written f rest attempts failure h ih =>
    cases attempts with
    | nil => simp
    | cons a attempts =>
      rw [List.dropLast_cons_of_ne_nil (List.cons_ne_nil _ _)]
      exact List.forall_mem_cons.mpr ⟨rfl, ih⟩

theorem failures_eq (h : Tries files attempts failure) : attempts.filterMap Attempt.failure? = failure.toList := by
  induction h with
  | done | failed => rfl
  | written f h ih => exact ih

/-- Without a failure all files were written. -/
theorem files_eq (h : Tries files attempts none) :
    attempts.map Attempt.file = files ∧ ∀ a ∈ attempts, a.isSuccess = true := by
  -- The induction is on how the files were tried, for whatever came of the last one.
  generalize hnone : (none : Option Failure) = failure at h
  induction h with
  | done => simp
  | failed => cases hnone
  | written f h ih =>
    obtain ⟨hfiles, hsuccess⟩ := ih hnone
    exact ⟨congrArg (f :: ·) hfiles, List.forall_mem_cons.mpr ⟨rfl, hsuccess⟩⟩

/-- A failure is that of a file which was tried. -/
theorem exists_failed {f : Failure} (h : Tries files attempts (some f)) :
    ∃ a ∈ attempts, ∃ e, a.error? = some e ∧ f = .unwritable a.file.path e.message := by
  have hmem : f ∈ attempts.filterMap Attempt.failure? := by
    rw [h.failures_eq]
    exact List.mem_singleton_self f
  obtain ⟨a, ha, hf⟩ := List.mem_filterMap.mp hmem
  obtain ⟨e, he, hf⟩ := Option.map_eq_some_iff.mp hf
  exact ⟨a, ha, e, he, hf.symm⟩

end Tries

/-! ### What a report tells -/

namespace FileReport

/-- The report about files that were to be written, after `diagnostics`. -/
def ofWriting (diagnostics : List Diagnostic) (files : List OutputFile) : Option Failure → FileReport
  | none => ⟨diagnostics, files.map OutputFile.path⟩
  | some failure => ⟨diagnostics ++ [failure.diagnostic], []⟩

/-- **The account that a report gives of the files `outputs`,** of which those in `attempts` were tried. -/
structure Accounts (report : FileReport) (outputs : List OutputFile) (attempts : List Attempt) : Prop where
  /-- The files are tried in their order. -/
  tried : attempts.map Attempt.file <+: outputs
  /-- No file is tried after one that failed. -/
  untilFailure : ∀ a ∈ attempts.dropLast, a.isSuccess
  /-- If none failed, all were written and are on the list. -/
  complete : (∀ a ∈ attempts, a.isSuccess) →
    attempts.map Attempt.file = outputs ∧ report.written = outputs.map OutputFile.path
  /-- If one failed, none is on the list. -/
  empty : (∃ a ∈ attempts, a.isSuccess = false) → report.written = []
  /-- So the list is right if and only if all were written, or none. -/
  truthful_iff : report.written = (attempts.filter Attempt.isSuccess).map (fun a => a.file.path) ↔
    (∀ a ∈ attempts, a.isSuccess) ∨ ∀ a ∈ attempts, a.isSuccess = false
  /-- The diagnostics about writing are those of the failures. -/
  reported : report.diagnostics.filter (fun d => d.code = some Message.cannotWrite.code) =
    (attempts.filterMap Attempt.failure?).map Failure.diagnostic
  /-- There is one failure at most. -/
  once : (attempts.filterMap Attempt.failure?).length ≤ 1
  /-- The diagnostic names the file unless a place for the reason is part of the name. -/
  named_iff : ∀ a ∈ attempts, ∀ e ∈ a.error?,
    (Failure.unwritable a.file.path e.message).diagnostic.message =
        "Cannot write file '" ++ a.file.path ++ "': " ++ e.message ++ "." ↔
      e.message = placeholder 1 ∨ places 1 a.file.path = 0

end FileReport

/-- The name of a file is reported as it is unless there is a place for the reason in it. -/
theorem Failure.message_unwritable_iff (path reason : String) :
    (Failure.unwritable path reason).diagnostic.message =
        "Cannot write file '" ++ path ++ "': " ++ reason ++ "." ↔ reason = placeholder 1 ∨ places 1 path = 0 := by
  have htext : "Cannot write file '" ++ path ++ "': " ++ reason ++ "." =
      aboutTwo "Cannot write file " ": " path reason := by
    simp [← String.toList_inj, aboutTwo]
  change fill Message.cannotWrite.template [path, reason] = _ ↔ _
  rw [htext, Message.templates_aboutTwo.2.1]
  exact fill_aboutTwo_eq_iff (by decide) (by decide) path reason

/-- The report of files that were tried gives account of them. -/
theorem Tries.accounts {files : List OutputFile} {attempts : List Attempt} {failure : Option Failure}
    (h : Tries files attempts failure) {diagnostics : List Diagnostic}
    (hothers : ∀ d ∈ diagnostics, d.code ≠ some Message.cannotWrite.code) :
    (FileReport.ofWriting diagnostics files failure).Accounts files attempts := by
  -- So all diagnostics about writing come from the failure.
  have hnone : diagnostics.filter (fun d => d.code = some Message.cannotWrite.code) = [] := by
    simpa using hothers
  have hnamed (a : Attempt) (_ : a ∈ attempts) (e : HostError) (_ : e ∈ a.error?) :=
    Failure.message_unwritable_iff a.file.path e.message
  cases failure with
  | none =>
    obtain ⟨hfiles, hsuccess⟩ := h.files_eq
    have hwritten : attempts.map (fun a => a.file.path) = files.map OutputFile.path := by
      rw [← hfiles, List.map_map]
      rfl
    refine ⟨h.isPrefix, h.isSuccess_of_mem_dropLast, fun _ => ⟨hfiles, rfl⟩, ?_, ?_, ?_, ?_, hnamed⟩
    · rintro ⟨a, ha, hfailed⟩
      rw [hsuccess a ha] at hfailed
      cases hfailed
    · rw [List.filter_eq_self.mpr hsuccess, hwritten]
      exact iff_of_true rfl (.inl hsuccess)
    · rw [h.failures_eq]
      exact hnone
    · rw [h.failures_eq]
      exact Nat.zero_le 1
  | some f =>
    obtain ⟨a, ha, e, he, hf⟩ := h.exists_failed
    have hfailed : a.isSuccess = false := by
      rw [Attempt.isSuccess, he]
      rfl
    have hnot : ¬∀ a ∈ attempts, a.isSuccess = true := by
      intro hall
      rw [hall a ha] at hfailed
      cases hfailed
    have hcode : f.diagnostic.code = some Message.cannotWrite.code := by
      rw [hf]
      rfl
    refine ⟨h.isPrefix, h.isSuccess_of_mem_dropLast, fun hall => absurd hall hnot, fun _ => rfl, ?_, ?_, ?_,
      hnamed⟩
    · -- The list is empty, so it is right only if nothing was written.
      change [] = _ ↔ _
      rw [or_iff_right hnot, eq_comm, List.map_eq_nil_iff, List.filter_eq_nil_iff]
      simp only [Bool.not_eq_true]
    · rw [h.failures_eq, FileReport.ofWriting, List.filter_append, hnone, List.nil_append,
        List.filter_singleton, hcode]
      simp
    · rw [h.failures_eq]
      exact Nat.le_refl 1

/-! ### Compiling a story -/

namespace Settings

/-- The files of a story, by what reading it came to: there are none if it could not be read. -/
def outputs (s : Settings) (file : String) (target : Option String) : Except HostError String → List OutputFile
  | .error _ => []
  | .ok text => s.wanted file (emit ⟨s.indentSize, true⟩ (s.request file target) text).files

/-- What there is to say about a story before its files are written. -/
def findings (s : Settings) (file : String) (target : Option String) : Except HostError String → List Diagnostic
  | .error e => [(Failure.unreadable file e.message).diagnostic]
  | .ok text => (emit ⟨s.indentSize, true⟩ (s.request file target) text).diagnostics

/-- Compiling a story is reading it, writing its files, and reporting. -/
theorem compileFile_run (host : Host (StateM σ)) (s : Settings) (file : String) (target : Option String)
    (world : σ) :
    s.compileFile host file target world =
      let story := host.readText (Path.normalize file) world
      let outputs := s.outputs (Path.normalize file) target story.1
      let writing := writeFiles host outputs story.2
      (.ofWriting (s.findings (Path.normalize file) target story.1) outputs writing.1, writing.2) := by
  change (host.readText (Path.normalize file) >>= _) world = _
  -- Where the story cannot be read there is nothing to write.
  rcases hread : host.readText (Path.normalize file) world with ⟨e | text, after⟩
  · simp only [bind, StateT.bind, hread]
    rfl
  · simp only [bind, StateT.bind, hread]
    dsimp only [outputs, findings]
    rcases hwrite : writeFiles host (s.wanted (Path.normalize file)
      (emit ⟨s.indentSize, true⟩ (s.request (Path.normalize file) target) text).files) after with ⟨_ | failure, done⟩
    · rfl
    · rfl

/-- Neither reading nor generating reports that a file cannot be written. -/
theorem code_of_mem_findings {s : Settings} {file : String} {target : Option String}
    {story : Except HostError String} {d : Diagnostic} (h : d ∈ s.findings file target story) :
    d.code ≠ some Message.cannotWrite.code := by
  cases story with
  | error e =>
    rw [List.mem_singleton.mp h]
    exact of_decide_eq_true rfl
  | ok text =>
    dsimp only [findings] at h
    unfold emit at h
    dsimp only at h
    -- The codes of the reader are below those of the generator, which has just one.
    obtain hparsed | hgenerated := List.mem_append.mp h
    · obtain ⟨c, hc, hd⟩ := code_of_mem_parseModule hparsed
      rw [hd]
      rintro ⟨⟩
      exact absurd hc (by decide)
    · rw [generate] at hgenerated
      obtain ⟨span, -, rfl⟩ := List.mem_map.mp hgenerated
      exact of_decide_eq_true rfl

/-- **What a report about a story tells.** On every host, for all settings, stories and targets: the record
changes nothing, and the report gives account of the files of the story as they were tried. -/
theorem compileFile_accounts (host : Host (StateM σ)) (s : Settings) (file : String) (target : Option String)
    (world : σ) :
    let run := (s.compileFile host file target).run world
    let recorded := (s.compileFile host.recorded file target).run (world, [])
    let story := ((host.readText (Path.normalize file)).run world).1
    recorded.1 = run.1 ∧ recorded.2.1 = run.2 ∧
      run.1.Accounts (s.outputs (Path.normalize file) target story) recorded.2.2 := by
  let story := host.readText (Path.normalize file) world
  obtain ⟨attempts, hwriting, htries⟩ :=
    writeFiles_recorded host (s.outputs (Path.normalize file) target story.1) story.2 []
  -- Reading leaves no record, so the record is that of the writing.
  have hread : host.recorded.readText (Path.normalize file) (world, []) = (story.1, (story.2, [])) := rfl
  have hrecorded := compileFile_run host.recorded s file target (world, [])
  simp only [hread, hwriting, List.nil_append] at hrecorded
  dsimp only [StateT.run]
  rw [hrecorded, compileFile_run host s file target world]
  exact ⟨rfl, rfl, htries.accounts fun d hd => code_of_mem_findings hd⟩

end Settings

end Record

/-- A directory has the name of the map. The script is written before that is found out, and it is not on the
list. -/
example :
    let settings : Settings := ⟨"src", "out", none, true, false, none, none, none, 2⟩
    let tree := ((FileTree.mk [] []).addFile ["src", "a.st"] [] false).addDirectory ["out", "a.js.map"]
    let run := (settings.compileFile memoryHost "src/a.st" none).run tree
    run.1.written = [] ∧ FileTree.entry? run.2 ["out", "a.js"] ≠ none := by
  decide +kernel

end Story
