import Story.Json.Read
import Story.Path
import Story.Pattern.Read

/-!
# Settings of a project

The settings of a project say where its stories are, where the files made from them go, and which
stories are compiled.

* `Settings.resolve` makes the directories absolute, or at least relative to where the settings
  stand;
* `Settings.check` finds what the shape of the settings does not rule out;
* `FileFilter` chooses the stories by patterns.
-/

namespace Story

/-- The settings of a project. -/
structure Settings where
  /-- The directory of the stories. -/
  sourceRoot : String
  /-- The directory of the scripts and source maps. -/
  scriptRoot : String
  /-- The directory of the typed copies. -/
  typedRoot : Option String
  /-- Whether scripts and source maps are written. -/
  writesScripts : Bool
  /-- Whether typed copies are written. -/
  writesTyped : Bool
  /-- The environment of the scripts. -/
  environment : Option String
  /-- Patterns of the files that are compiled. -/
  included : Option (List String)
  /-- Patterns of the files that are not. -/
  excluded : Option (List String)
  /-- Columns of a story's text for each level of indentation. -/
  indentSize : Nat
deriving DecidableEq

/-! ### The fields by name -/

/-- A field of the settings. -/
inductive Field where
  | sourceRoot | scriptRoot | typedRoot | writesScripts | writesTyped | environment | included
  | excluded | indentSize
deriving DecidableEq

namespace Field

/-- All fields, in order. -/
def all : List Field :=
  [sourceRoot, scriptRoot, typedRoot, writesScripts, writesTyped, environment, included, excluded,
   indentSize]

/-- The field's name in a file of settings. -/
def name : Field → String
  | sourceRoot => "sourceRoot"
  | scriptRoot => "javascriptOutputRoot"
  | typedRoot => "typescriptOutputRoot"
  | writesScripts => "isEmitJavascript"
  | writesTyped => "isEmitTypescript"
  | environment => "environmentPath"
  | included => "include"
  | excluded => "exclude"
  | indentSize => "indentSize"

end Field

/-! ### What can be wrong with settings -/

/-- What can be wrong with settings. -/
inductive SettingsError where
  /-- The file at `path` does not hold settings. -/
  | unreadable (path : String) (fault : Json.Fault)
  /-- A pattern of a field is none. -/
  | pattern (field : Field) (pattern : String) (error : PatternError)
  /-- A directory is missing that a flag asks for. -/
  | missingRoot (root flag : Field)
  /-- Levels of indentation have no columns. -/
  | noIndentation
deriving DecidableEq

/-- What a fault of the text is called. -/
def Json.Fault.message : Json.Fault → String
  | malformed => "the text is not JSON"
  | misshapen => "a field is missing, repeated or of the wrong type"
  | ended => "the text ends too early"

/-- The error's text. -/
def SettingsError.message : SettingsError → String
  | unreadable path fault => path ++ " is not a valid configuration: " ++ fault.message
  | pattern field text error =>
    "invalid " ++ field.name ++ " pattern '" ++ text ++ "': " ++ error.message
  | missingRoot root flag =>
    "'" ++ root.name ++ "' is required when '" ++ flag.name ++ "' is true"
  | noIndentation => "'" ++ Field.indentSize.name ++ "' must be at least 1"

/-! ### Choosing files -/

/-- Which files are compiled. -/
structure FileFilter where
  /-- One of these must match. -/
  included : List Pattern
  /-- None of these may match. -/
  excluded : List Pattern
deriving DecidableEq

namespace FileFilter

/-- The pattern when none is given: all stories. -/
def standard : String := "\\.st$"

/-- Read the patterns of a field; the first that is none decides. -/
def readAll (field : Field) : List String → Except SettingsError (List Pattern)
  | [] => return []
  | text :: rest =>
    match Pattern.ofText text with
    | .error e => throw (.pattern field text e)
    | .ok p => do return p :: (← readAll field rest)

/-- A filter from its patterns. That none are given to include is not the same as an empty list. -/
def ofPatterns (included : Option (List String)) (excluded : List String) :
    Except SettingsError FileFilter := do
  let first ← readAll .included (included.getD [standard])
  let second ← readAll .excluded excluded
  return ⟨first, second⟩

/-- Whether the file is compiled. -/
def accepts (f : FileFilter) (path : String) : Bool :=
  let path := Path.slashed path
  (f.included.any fun p => p.isMatch path) && !f.excluded.any fun p => p.isMatch path

end FileFilter

/-! ### Using settings -/

namespace Settings

/-- Read relative directories from the directory `base`. An environment is a path only if it says so
by its first segment. -/
def resolve (s : Settings) (base : String) : Settings :=
  { s with
    sourceRoot := Path.combine base s.sourceRoot
    scriptRoot := Path.combine base s.scriptRoot
    typedRoot := s.typedRoot.map (Path.combine base)
    environment := s.environment.map fun path =>
      if Path.begins "./" path || Path.begins "../" path then Path.combine base path else path }

/-- The filter of the settings. -/
def filter (s : Settings) : Except SettingsError FileFilter :=
  FileFilter.ofPatterns s.included (s.excluded.getD [])

/-- Check the settings; the first thing that is wrong decides. -/
def check (s : Settings) : Except SettingsError Unit := do
  if s.writesTyped && s.typedRoot.isNone then throw (.missingRoot .typedRoot .writesTyped)
  if s.indentSize = 0 then throw .noIndentation
  let _ ← s.filter

/-- Where the script of a story goes. -/
def scriptPath (s : Settings) (file : String) : String :=
  Path.output file s.sourceRoot s.scriptRoot .script

/-- Where the typed copy of a story goes, if there is one. -/
def typedPath (s : Settings) (file : String) : Option String :=
  if s.writesTyped then s.typedRoot.map fun root => Path.output file s.sourceRoot root .typed
  else none

end Settings

end Story
