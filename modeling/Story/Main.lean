import Story.Command

/-!
# The command

The host that is the disk, and the program. Tools are not run from here: a project that asks for one
is told that it cannot be run.
-/

namespace Story

/-- What an error of the disk means. -/
def diskError : IO.Error → HostError
  | .noFileOrDirectory .. => .notFound
  | .permissionDenied .. => .denied
  | .alreadyExists .. => .alreadyExists
  | .inappropriateType .. => .notDirectory
  | e => .other (toString e)

/-- An action on the disk, with its error as a value. -/
def onDisk {α : Type} (action : IO α) : IO (Except HostError α) := do
  try return .ok (← action)
  catch e => return .error (diskError e)

/-- The text of a file on the disk. -/
def readDisk (path : String) : IO (Except HostError String) := do
  match ← onDisk (IO.FS.readBinFile path) with
  | .error e => return .error e
  | .ok bytes =>
    match Utf8.decode? bytes.toList with
    | some text => return .ok text
    | none => return .error .notText

/-- Write a file to the disk, with the directories that lead to it. -/
def writeDisk (path text : String) : IO (Except HostError Unit) :=
  onDisk do
    let directory := Path.directory path
    if directory ≠ "." then IO.FS.createDirAll directory
    IO.FS.writeFile path text

/-- All files below a directory of the disk, but for the directories to be skipped. -/
partial def walkDisk (skips : String → Bool) (path : String) :
    IO (Except (String × HostError) (List (List String))) := do
  let here ← IO.currentDir
  match ← onDisk ((here / path).readDir) with
  | .error e => return .error (path, e)
  | .ok entries =>
    let mut found := []
    for entry in entries do
      let name := entry.fileName
      if ← entry.path.isDir then
        if !skips name then
          match ← walkDisk skips (path ++ "/" ++ name) with
          | .error e => return .error e
          | .ok below => found := found ++ below.map (name :: ·)
      else found := found ++ [[name]]
    return .ok found

/-- The host that is the disk. -/
def diskHost : Host IO where
  readText := readDisk
  writeText := writeDisk
  filesUnder := walkDisk
  runTool _ _ := return .error .unsupported

end Story

/-- Run the command with its arguments. -/
def main (arguments : List String) : IO UInt32 := do
  let outcome ← Story.runCommand Story.diskHost arguments
  IO.print outcome.output
  IO.eprint outcome.errors
  return outcome.exitCode.toUInt32
