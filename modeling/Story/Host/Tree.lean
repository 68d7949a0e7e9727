import Story.Host.Basic
import Story.Path
import Story.Text.Utf8

/-!
# Files in memory

A `FileTree` is a tree of files and directories that is held in memory, with a current directory.
Paths lead through it name by name: a name that is not there, a file where a directory should be,
and a directory where a file should be are told apart, as an operating system does.
-/

namespace Story

/-- What stands under a name. -/
inductive Entry where
  /-- A directory. -/
  | directory
  /-- A file with its bytes, which may be run as a tool if `isExecutable`. -/
  | file (bytes : List UInt8) (isExecutable : Bool)
deriving DecidableEq

/-- Files and directories, by the names that lead to them from the root. -/
structure FileTree where
  /-- The entries. The root is not among them. -/
  entries : List (List String × Entry)
  /-- The current directory. -/
  current : List String
deriving DecidableEq

/-- Where a path leads to. -/
inductive Place where
  /-- To an entry. -/
  | found (names : List String) (entry : Entry)
  /-- To a name that is free, in a directory that is there. -/
  | free (names : List String)
deriving DecidableEq

namespace FileTree

/-- The entry at the end of names from the root. -/
def entry? (t : FileTree) (names : List String) : Option Entry :=
  if names = [] then some .directory else t.entries.lookup names

/-- Put an entry at the end of names from the root. -/
def set (t : FileTree) (names : List String) (entry : Entry) : FileTree :=
  { t with entries := t.entries.filter (fun e => e.1 ≠ names) ++ [(names, entry)] }

/-- Put a directory and those that lead to it. -/
def addDirectory (t : FileTree) (names : List String) : FileTree :=
  ((List.range names.length).map fun n => names.take (n + 1)).foldl
    (fun t front => if (t.entry? front).isSome then t else t.set front .directory) t

/-- Put a file and the directories that lead to it. -/
def addFile (t : FileTree) (names : List String) (bytes : List UInt8) (isExecutable : Bool) :
    FileTree :=
  (t.addDirectory names.dropLast).set names (.file bytes isExecutable)

/-- The most bytes of a name. -/
def longestName : Nat := 255

/-- The most bytes of a path. -/
def longestPath : Nat := 4095

/-- Follow names from a directory. -/
def follow (t : FileTree) (here : List String) : List String → Except HostError Place
  | [] =>
    match t.entry? here with
    | some entry => return .found here entry
    | none => throw .notFound
  | name :: rest =>
    match t.entry? here with
    | none => throw .notFound
    | some (.file ..) => throw .notDirectory
    | some .directory =>
      if longestName < name.utf8ByteSize then throw .nameTooLong
      else
        let next := if name = ".." then here.dropLast else here ++ [name]
        match t.entry? next, rest with
        -- Only the last name may be free.
        | none, [] => return .free next
        | _, _ => t.follow next rest

/-- The names on a path, without those that lead nowhere. -/
def pathNames (path : String) : List String :=
  ((Path.splitSlashes path.toList).map String.ofList).filter fun n => n ≠ "" && n ≠ "."

/-- Whether a path can only lead to a directory. -/
def asksForDirectory (path : String) : Bool :=
  match ((Path.splitSlashes path.toList).map String.ofList).getLast? with
  | some last => last = "" || last = "."
  | none => false

/-- Where a path leads to. -/
def locate (t : FileTree) (path : String) : Except HostError Place := do
  if path.toList.contains '\x00' then throw .zeroInName
  if path.isEmpty then throw .notFound
  if longestPath < path.utf8ByteSize then throw .nameTooLong
  let start := if Path.begins "/" path then [] else t.current
  match ← t.follow start (pathNames path) with
  | .found names (.file bytes isExecutable) =>
    -- A slash at the end asks for a directory.
    if asksForDirectory path then throw .notDirectory
    return .found names (.file bytes isExecutable)
  | place => return place

/-! ### Reading -/

/-- The bytes of a file. -/
def readBytes (t : FileTree) (path : String) : Except HostError (List UInt8) := do
  match ← t.locate path with
  | .found _ (.file bytes _) => return bytes
  | .found _ .directory => throw .isDirectory
  | .free _ => throw .notFound

/-- The text of a file. -/
def readText (t : FileTree) (path : String) : Except HostError String := do
  match Utf8.decode? (← t.readBytes path) with
  | some text => return text
  | none => throw .notText

/-- Whether a path leads to a directory. -/
def isDirectory (t : FileTree) (path : String) : Bool :=
  match t.locate path with
  | .ok (.found _ .directory) => true
  | _ => false

/-- All files below a directory, but for the directories to be skipped. -/
def filesUnder (t : FileTree) (skips : String → Bool) (path : String) :
    Except (String × HostError) (List (List String)) :=
  match t.locate path with
  | .error e => throw (path, e)
  | .ok (.free _) => throw (path, .notFound)
  | .ok (.found _ (.file ..)) => throw (path, .notDirectory)
  | .ok (.found root .directory) =>
    -- Directories are named by the files in them.
    let below := t.entries.filterMap fun (names, entry) =>
      match entry with
      | .directory => none
      | .file .. => if root.isPrefixOf names then some (names.drop root.length) else none
    return below.filter fun names => !names.dropLast.any skips

/-! ### Writing -/

/-- Make one directory. -/
def makeDirectory (t : FileTree) (path : String) : Except HostError FileTree := do
  match ← t.locate path with
  | .found .. => throw .alreadyExists
  | .free names => return t.set names .directory

/-- Make a directory unless it is there. -/
def ensureDirectory (t : FileTree) (path : String) : Except HostError FileTree :=
  match t.makeDirectory path with
  | .ok t => return t
  -- Made by now, or something else is in the way.
  | .error e => if t.isDirectory path then return t else throw e

/-- Make the directory with the given names, the last one first, and those that lead to it. `front`
is what the path starts with. -/
def makeDirectories (t : FileTree) (front : String) : List String → Except HostError FileTree
  | [] => return t
  | name :: rest => do
    let path := front ++ "/".intercalate (name :: rest).reverse
    match t.ensureDirectory path with
    | .ok t => return t
    | .error .notFound =>
      let t ← t.makeDirectories front rest
      t.ensureDirectory path
    | .error e => throw e

/-- Write the bytes of a file whose directory is there. -/
def writeBytes (t : FileTree) (path : String) (bytes : List UInt8) : Except HostError FileTree := do
  match ← t.locate path with
  | .found _ .directory => throw .isDirectory
  | .found names (.file _ isExecutable) => return t.set names (.file bytes isExecutable)
  | .free names => return t.set names (.file bytes false)

/-- Write a file, with the directories that lead to it. -/
def writeText (t : FileTree) (path text : String) : Except HostError FileTree := do
  let front := if Path.begins "/" path then "/" else ""
  let t ← t.makeDirectories front (pathNames path).dropLast.reverse
  t.writeBytes path (Utf8.encode text)

end FileTree

end Story
