import Story.Emit
import Story.Project.Tool
import Story.Settings.Read

/-!
# Compiling a project

A project is compiled on a `Host`: its settings are read, its stories are found, each is compiled
and its files are written, and at the end a tool may run over them. Nothing here fails; what goes
wrong is told by the `Report`, under the path that it is about.
-/

namespace Story

variable {m : Type → Type} [Monad m]

/-! ### Reports -/

/-- What came of a project. -/
structure Report where
  /-- The diagnostics of each path, in the order in which the paths came up. Every story that was
  compiled is among them, also if there is nothing to say about it. -/
  entries : List (String × List Diagnostic)
  /-- The files that were written. -/
  written : List String
deriving DecidableEq

namespace Report

/-- Nothing has happened. -/
def empty : Report := ⟨[], []⟩

/-- Put diagnostics under a path, after those that are there. -/
def insert (path : String) (diagnostics : List Diagnostic) :
    List (String × List Diagnostic) → List (String × List Diagnostic)
  | [] => [(path, diagnostics)]
  | (p, ds) :: rest =>
    if p = path then (p, ds ++ diagnostics) :: rest else (p, ds) :: insert path diagnostics rest

/-- Report diagnostics about a path. -/
def add (r : Report) (path : String) (diagnostics : List Diagnostic) : Report :=
  { r with entries := insert path diagnostics r.entries }

/-- All diagnostics. -/
def diagnostics (r : Report) : List Diagnostic := r.entries.flatMap Prod.snd

/-- How many errors there are. -/
def errorCount (r : Report) : Nat := Diagnostic.errorCount r.diagnostics

/-- Whether there are errors. -/
def hasErrors (r : Report) : Bool := Diagnostic.hasErrors r.diagnostics

end Report

/-! ### One story -/

/-- What came of one story. -/
structure FileReport where
  /-- What there is to say. -/
  diagnostics : List Diagnostic
  /-- The files that were written. -/
  written : List String
deriving DecidableEq

/-- Report what came of the story at a path. -/
def Report.addFile (r : Report) (path : String) (f : FileReport) : Report :=
  { r.add path f.diagnostics with written := r.written ++ f.written }

/-- Write files one after the other, up to the first that cannot be written. -/
def writeFiles (host : Host m) : List OutputFile → m (Option Failure)
  | [] => return none
  | f :: rest => do
    match ← host.writeText f.path f.text with
    | .error e => return some (.unwritable f.path e.message)
    | .ok _ => writeFiles host rest

/-- What to compile a story to. -/
def Settings.request (s : Settings) (file : String) (target : Option String) : EmitRequest :=
  ⟨file, target, s.sourceRoot, s.scriptRoot, s.environment, s.typedPath file⟩

/-- The files of a story that the settings ask for. -/
def Settings.wanted (s : Settings) (file : String) (files : List OutputFile) : List OutputFile :=
  if s.writesScripts then files else files.filter fun f => some f.path = s.typedPath file

/-- Compile a story, to the file `target` if it is given. If a file cannot be written, none counts
as written. -/
def Settings.compileFile (host : Host m) (s : Settings) (file : String) (target : Option String) :
    m FileReport := do
  let file := Path.normalize file
  match ← host.readText file with
  | .error e => return ⟨[(Failure.unreadable file e.message).diagnostic], []⟩
  | .ok text =>
    let emission := emit ⟨s.indentSize, true⟩ (s.request file target) text
    let files := s.wanted file emission.files
    match ← writeFiles host files with
    | none => return ⟨emission.diagnostics, files.map OutputFile.path⟩
    -- Files before the failure are there, but they are not told of.
    | some failure => return ⟨emission.diagnostics ++ [failure.diagnostic], []⟩

/-! ### A whole project -/

/-- The settings of a project and the filter that they describe. -/
structure Project where
  /-- The settings. -/
  settings : Settings
  /-- Which files are compiled. -/
  filter : FileFilter
deriving DecidableEq

namespace Project

/-- A project from the text of its settings at `path`. Directories are read from the directory that
the settings are in. -/
def ofText (path text : String) : Except Failure Project :=
  match Settings.ofText text with
  | .error fault => throw (.settings (.unreadable path fault))
  | .ok s =>
    let s := s.resolve (Path.directory path)
    -- A fault of the settings is told before one of the patterns.
    match s.check, s.filter with
    | .ok _, .ok filter => return ⟨s, filter⟩
    | .error e, _ => throw (.settings e)
    | _, .error e => throw (.settings e)

/-- Load a project. -/
def load (host : Host m) (path : String) : m (Except Failure Project) := do
  match ← host.readText path with
  | .error e => return .error (.unreadable path e.message)
  | .ok text => return ofText path text

/-- Whether a directory is never searched for stories. -/
def isSkipped (name : String) : Bool := name = "node_modules" || name = ".git"

/-- The stories of a project, sorted. The filter sees each path as it leads there from the root. -/
def sources (host : Host m) (p : Project) : m (Except Failure (List String)) := do
  let root := p.settings.sourceRoot
  match ← host.filesUnder isSkipped root with
  | .error (directory, e) => return .error (.unreadable directory e.message)
  | .ok found =>
    let paths := found.map fun names => Path.normalize (root ++ "/" ++ "/".intercalate names)
    let accepted := paths.filter fun path => p.filter.accepts (Path.relative root path)
    -- Names are compared by code points.
    return .ok (accepted.mergeSort fun a b => !decide (b < a))

/-- Compile stories one after the other. -/
def compileFiles (host : Host m) (p : Project) (r : Report) : List String → m Report
  | [] => return r
  | file :: rest => do
    let f ← p.settings.compileFile host file none
    compileFiles host p (r.addFile file f) rest

/-- Compile all stories of a project. -/
def compileAll (host : Host m) (p : Project) : m Report := do
  match ← p.sources host with
  | .error failure => return Report.empty.add p.settings.sourceRoot [failure.diagnostic]
  | .ok files => compileFiles host p .empty files

end Project

/-- What is asked for. -/
structure CompileOptions where
  /-- The file of the settings. -/
  settings : String
  /-- The only story to compile. -/
  file : Option String
  /-- The only story to compile, and the file of its script. -/
  output : Option (String × String)
  /-- What the typed scripts are checked by at the end: the settings of that tool. -/
  typedSettings : Option String
deriving DecidableEq

/-- The tool that checks typed scripts. -/
def typedCompiler : String := "tsc"

/-- Run the tool over the typed scripts, unless there are errors. -/
def Report.checkTyped (host : Host m) (r : Report) : Option String → m Report
  | none => return r
  | some path =>
    if r.hasErrors then return r
    else return r.add path (← toolDiagnostics host typedCompiler ["-p", path])

/-- Compile what is asked for. -/
def compileProject (host : Host m) (o : CompileOptions) : m Report := do
  match ← Project.load host o.settings with
  | .error failure => return Report.empty.add o.settings [failure.diagnostic]
  | .ok p =>
    let r ← match o.output, o.file with
      | some (source, target), _ => do
        let f ← p.settings.compileFile host source (some target)
        pure (Report.empty.addFile (Path.normalize source) f)
      | none, some file => do
        let f ← p.settings.compileFile host file none
        pure (Report.empty.addFile (Path.normalize file) f)
      | none, none => p.compileAll host
    r.checkTyped host o.typedSettings

end Story
