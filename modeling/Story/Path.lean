/-!
# Paths

Paths are texts with segments between slashes. A path may start at a root, `/` or a drive such as
`C:/`; otherwise it is relative. Generated scripts and source maps name files by such texts, so they
look the same everywhere; a backslash counts as a slash.

* `Path` is a path taken apart: root and segments, with `.` left out and `..` folded into the
  segment before it;
* `Path.normalize` is the text of a path in that form, and `Path.combine`, `Path.relative` and
  `Path.directory` are the usual operations on texts;
* `FileKind` are the kinds of files, told by the ends of their names.
-/

namespace Story

/-! ### Taking paths apart -/

/-- Where a path starts. -/
inductive Root where
  /-- The path is relative. -/
  | nowhere
  /-- `/`. -/
  | slash
  /-- A drive, `C:/`. -/
  | drive (letter : Char)
deriving DecidableEq

/-- The root as a path starts with it. -/
def Root.text : Root → String
  | nowhere => ""
  | slash => "/"
  | drive letter => String.ofList [letter, ':', '/']

/-- A path in normal form. -/
structure Path where
  /-- Where it starts. -/
  root : Root
  /-- The names on the way, from the root on. -/
  segments : List String
deriving DecidableEq

namespace Path

/-- A slash for each backslash. -/
def slashed (text : String) : String :=
  String.ofList (text.toList.map fun c => if c = '\\' then '/' else c)

/-- The stretches between slashes. -/
def splitSlashes : List Char → List (List Char)
  | [] => [[]]
  | c :: cs =>
    if c = '/' then [] :: splitSlashes cs
    else match splitSlashes cs with
      | [] => [[c]]
      | s :: ss => (c :: s) :: ss

/-- The root of a text with slashes, and what comes after it. -/
def splitRoot : List Char → Root × List Char
  | '/' :: cs => (.slash, cs)
  | c :: ':' :: '/' :: cs => if c.isAlpha then (.drive c, cs) else (.nowhere, c :: ':' :: '/' :: cs)
  | cs => (.nowhere, cs)

/-- Go on by one segment; `stack` holds the segments so far, the last one first. From a relative
path `..` may lead out, from a root it leads nowhere. -/
def enter (root : Root) (stack : List String) (segment : String) : List String :=
  if segment = "" ∨ segment = "." then stack
  else if segment = ".." then
    match stack with
    | last :: rest =>
      -- A `..` that leads out cannot be folded, and the next one leads out further.
      if last ≠ ".." then rest else if root = .nowhere then ".." :: last :: rest else last :: rest
    | [] => if root = .nowhere then [".."] else []
  else segment :: stack

/-- Take a path apart. -/
def ofText (text : String) : Path :=
  let (root, rest) := splitRoot (slashed text).toList
  ⟨root, (((splitSlashes rest).map String.ofList).foldl (enter root) []).reverse⟩

/-- The text of a path; `.` if there is nothing to write. -/
def text (p : Path) : String :=
  if p.root = .nowhere ∧ p.segments = [] then "."
  else p.root.text ++ "/".intercalate p.segments

/-- Whether `text` begins with `head`. -/
def begins (head text : String) : Bool := head.toList.isPrefixOf text.toList

/-- The directory that a path lies in. A root lies in itself. -/
def parent (p : Path) : Path := { p with segments := p.segments.dropLast }

/-- All names of a path, with a drive as the first of them. -/
def names (p : Path) : List String :=
  match p.root with
  | .drive letter => String.ofList [letter, ':'] :: p.segments
  | _ => p.segments

/-! ### Operations on texts -/

/-- The normal form: slashes only, no `.`, no `..` after a name, no slash at the end. -/
def normalize (path : String) : String := (ofText path).text

/-- Whether a path starts at a root. -/
def isRooted (path : String) : Bool := (ofText path).root ≠ .nowhere

/-- Whether a character divides a path. -/
def isSeparator (c : Char) : Bool := c = '/' || c = '\\'

/-- The path with a slash at the end, unless it has one. -/
def withSlash (path : String) : String :=
  if path.toList.getLast?.any isSeparator then path else path ++ "/"

/-- Follow `path` from the directory `base`. -/
def combine (base path : String) : String :=
  if isRooted path || base.isEmpty then normalize path else normalize (withSlash base ++ path)

/-- The directory of a file. -/
def directory (path : String) : String := (ofText (normalize path)).parent.text

/-- A path up to its last separator, that included, and what comes after it. -/
def splitName (path : List Char) : List Char × List Char :=
  let name := path.reverse.takeWhile fun c => !isSeparator c
  ((path.reverse.drop name.length).reverse, name.reverse)

/-- What comes after the last separator. -/
def baseName (path : String) : String := String.ofList (splitName path.toList).2

/-- The steps from one list of names to another: out of what is not shared, into what remains. -/
def steps : List String → List String → List String
  | a :: as, b :: bs => if a = b then steps as bs else (a :: as).map (fun _ => "..") ++ b :: bs
  | as, bs => as.map (fun _ => "..") ++ bs

/-- The path that leads from the directory `source` to `target`. -/
def relative (source target : String) : String :=
  let names := steps (ofText source).names (ofText target).names
  if names = [] then "." else "/".intercalate names

/-- How a script in the directory `source` requires the file `target`: a relative path that says so
by its first segment. -/
def specifier (source target : String) : String :=
  let path := relative source target
  if begins "../" path || path = ".." then path else "./" ++ path

end Path

/-! ### Kinds of files -/

/-- The kinds of files that are read or written. -/
inductive FileKind where
  /-- A story. -/
  | story
  /-- A script. -/
  | script
  /-- A typed script. -/
  | typed
  /-- A source map beside a script. -/
  | map
  /-- Settings. -/
  | settings
deriving DecidableEq

namespace FileKind

/-- All kinds. -/
def all : List FileKind := [story, script, typed, map, settings]

/-- The kind's name. -/
def name : FileKind → String
  | story => "St"
  | script => "Js"
  | typed => "Ts"
  | map => "JsMap"
  | settings => "Json"

/-- How the names of such files end. -/
def ending : FileKind → String
  | story => ".st"
  | script => ".js"
  | typed => ".ts"
  | map => ".js.map"
  | settings => ".json"

/-- The kind of a file, told by the end of its name. Capital letters count as small ones. -/
def ofPath? (path : String) : Option FileKind :=
  all.find? fun kind => kind.ending.toList.isSuffixOf (path.toList.map Char.toLower)

end FileKind

namespace Path

/-- The path without the last ending of its name. A name that only begins with a dot has no ending,
and the ending of a source map is dropped whole. -/
def stem (path : String) : String :=
  -- This ending has two dots, so the last one alone would not do.
  if FileKind.ofPath? path = some .map then
    String.ofList (path.toList.take (path.length - FileKind.map.ending.length))
  else
    let (front, name) := splitName path.toList
    -- Something has to stand before the dot.
    match name.reverse.dropWhile fun c => c ≠ '.' with
    | _ :: c :: cs => String.ofList (front ++ (c :: cs).reverse)
    | _ => path

/-- The path with the ending of another kind. -/
def withKind (path : String) (kind : FileKind) : String := stem path ++ kind.ending

/-- Where the file that is made from `file` belongs: at the same place under `outputRoot` as `file`
under `sourceRoot`. -/
def output (file sourceRoot outputRoot : String) (kind : FileKind) : String :=
  combine outputRoot (withKind (relative sourceRoot file) kind)

/-- Whether a module is named by a path rather than by the name of a package. -/
def isLocal (path : String) : Bool :=
  isRooted path || begins "./" path || begins "../" path

end Path

end Story
