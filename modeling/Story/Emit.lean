import Story.Path
import Story.Script.Generate
import Story.SourceMap.Basic

/-!
# Compiling one story

`emit` makes the files of one story: the script, a source map beside it and, if asked for, a typed
copy of the script. Nothing is written here; an `Emission` says what is to be written where.
-/

namespace Story

/-- What to compile and where the files go. -/
structure EmitRequest where
  /-- The file of the story. -/
  sourceFile : String
  /-- The file of the script, if it is not the one that the roots give. -/
  targetFile : Option String
  /-- The directory of the stories. -/
  sourceRoot : String
  /-- The directory of the scripts. -/
  outputRoot : String
  /-- The environment: a path or the name of a package. -/
  environment : Option String
  /-- The file of the typed copy. -/
  typedFile : Option String
deriving DecidableEq

/-- The file of the script. -/
def EmitRequest.target (r : EmitRequest) : String :=
  match r.targetFile with
  | some path => Path.normalize path
  | none => Path.output r.sourceFile r.sourceRoot r.outputRoot .script

/-- What all stories of a project share. -/
structure EmitOptions where
  /-- Columns of a story's text for each level of indentation. -/
  indentSize : Nat
  /-- Whether a source map is written. -/
  withMap : Bool
deriving DecidableEq

/-- A file to be written. -/
structure OutputFile where
  /-- Where. -/
  path : String
  /-- What. -/
  text : String
deriving DecidableEq

/-- A compiled story. -/
structure Emission where
  /-- The text of the script file. -/
  script : String
  /-- The source map. -/
  map : String
  /-- The typed copy. -/
  typed : Option String
  /-- What was found wrong, by the reader of the story and then by the generator of the script. -/
  diagnostics : List Diagnostic
  /-- The files, in the order of writing. -/
  files : List OutputFile

/-- How a script in `directory` requires its environment. A package is required by its name. -/
def environmentSpecifier (directory : String) : Option String → String
  | none => ScriptOptions.defaultEnvironment
  | some path => if Path.isLocal path then Path.specifier directory path else path

/-- The source map of a script that was generated from one story. -/
def sourceMapOf (target : String) (source : String) (mappings : List Mapping) : SourceMap :=
  let map := ((SourceMap.empty (some (Path.baseName target))).addSource
    (Path.relative (Path.directory target) source)).2
  { map with mappings := map.mappings ++ mappings }

/-- The line that tells where the source map of a script is. -/
def mapComment (mapPath : String) : String :=
  "//# sourceMappingURL=" ++ Path.baseName mapPath ++ "\n"

/-- Compile the story `text`. -/
def emit (o : EmitOptions) (r : EmitRequest) (text : String) : Emission :=
  let target := r.target
  let environment := environmentSpecifier (Path.directory target) r.environment
  let parsed := parseModule text r.sourceFile o.indentSize
  let generated := generate { ScriptOptions.standard with environment, indentSize := o.indentSize }
    parsed.module
  let map := (sourceMapOf target r.sourceFile generated.mappings).json
  let mapPath := target ++ ".map"
  let script := if o.withMap then generated.script ++ mapComment mapPath else generated.script
  let mapFiles := if o.withMap then [⟨mapPath, map⟩] else []
  -- The typed copy has no source map, so it has no comment about one.
  let typedFiles := r.typedFile.toList.map fun path => ⟨path, generated.script⟩
  ⟨script, map, r.typedFile.map fun _ => generated.script,
    parsed.diagnostics ++ generated.diagnostics, ⟨target, script⟩ :: (mapFiles ++ typedFiles)⟩

end Story
