import Story.Shell.Run

/-!
# A host in memory

The host whose files are a `FileTree`. Its tools are shell scripts among these files; the shell
itself is always there. A tool without a slash in its name is looked for in one directory, `./bin`.
-/

namespace Story

namespace FileTree

/-- The path of the shell. -/
def shellPath : String := "/bin/sh"

/-- The program that the first line of a script asks for. -/
def interpreter? (script : String) : Option String :=
  match script.toList with
  | '#' :: '!' :: cs =>
    let isBlank (c : Char) : Bool := c = ' ' || c = '\t'
    let line := (cs.takeWhile fun c => c ≠ '\n').dropWhile isBlank
    if line.isEmpty then none
    else some (String.ofList (line.takeWhile fun c => !isBlank c))
  | _ => none

/-- Where a tool is looked for. -/
def toolPath (tool : String) : String :=
  if tool.toList.contains '/' then tool else "./bin/" ++ tool

/-- Run the shell itself: `-c` with a script, and perhaps a name and arguments for it. -/
def runShell (t : FileTree) : List String → ToolResult × FileTree
  | "-c" :: script :: name :: arguments => Shell.run name script arguments t
  | ["-c", script] => Shell.run shellPath script [] t
  | _ => (⟨[], [], .code 0⟩, t)

/-- Run a tool. -/
def runTool (t : FileTree) (tool : String) (arguments : List String) :
    Except HostError (ToolResult × FileTree) := do
  if (tool :: arguments).any fun text => text.toList.contains '\x00' then throw .zeroInArguments
  if tool.isEmpty then throw .notFound
  let path := toolPath tool
  -- The shell is not a file of the tree.
  if path = shellPath then return t.runShell arguments
  if Path.begins (shellPath ++ "/") path then throw .notDirectory
  match ← t.locate path with
  | .free _ => throw .notFound
  -- A file that may not be run is refused as a directory is.
  | .found _ .directory | .found _ (.file _ false) => throw .denied
  | .found _ (.file bytes true) =>
    let script := Utf8.decode bytes
    match interpreter? script with
    | none => throw .notExecutable
    | some program =>
      if program = shellPath then return Shell.run path script arguments t else throw .notFound

end FileTree

/-- The host in memory. -/
def memoryHost : Host (StateM FileTree) where
  readText path := do return (← get).readText path
  writeText path text := do
    match (← get).writeText path text with
    | .error e => return .error e
    | .ok t => set t; return .ok ()
  filesUnder skips path := do return (← get).filesUnder skips path
  runTool tool arguments := do
    match (← get).runTool tool arguments with
    | .error e => return .error e
    | .ok (r, t) => set t; return .ok r

end Story
