import Story.Json.Write
import Story.SourceMap.Segment

/-!
# Source maps

A `SourceMap` collects the sources, names and mappings of one script. Sources and names are known by
their index; registering one twice gives the first index. A finished map has its mappings in the
order of the script, and of several mappings at one place the one that was added first. It is handed to
a `MapWriter`, which writes it down.
-/

namespace Story

/-- A source of a map. -/
structure MapSource where
  /-- Its path. -/
  path : String
  /-- Its text, if the map is to hold it. -/
  content : Option String
deriving DecidableEq

/-- The sources, names and mappings of a script. -/
structure SourceMap where
  /-- The name of the script. -/
  file : Option String
  /-- The sources, by index. -/
  sources : List MapSource
  /-- The names, by index. -/
  names : List String
  /-- The mappings, in the order of adding. -/
  mappings : List Mapping
deriving DecidableEq

namespace SourceMap

/-- The map of a script, with nothing in it. -/
def empty (file : Option String) : SourceMap := ⟨file, [], [], []⟩

/-- Register a source. -/
def addSource (m : SourceMap) (path : String) : Nat × SourceMap :=
  match m.sources.findIdx? fun s => s.path = path with
  | some i => (i, m)
  | none => (m.sources.length, { m with sources := m.sources ++ [⟨path, none⟩] })

/-- Register a name. -/
def addName (m : SourceMap) (name : String) : Nat × SourceMap :=
  match m.names.findIdx? fun n => n = name with
  | some i => (i, m)
  | none => (m.names.length, { m with names := m.names ++ [name] })

/-- Give a source its text; nothing if there is no such source. -/
def setContent? (m : SourceMap) (index : Nat) (content : String) : Option SourceMap :=
  if index < m.sources.length then
    some { m with
      sources := m.sources.modify index fun source => { source with content := some content } }
  else none

/-- Add a mapping. -/
def addMapping (m : SourceMap) (mapping : Mapping) : SourceMap :=
  { m with mappings := m.mappings ++ [mapping] }

/-- Whether a mapping comes no later than another in the script. -/
def precedes (a b : Mapping) : Bool :=
  a.generatedLine < b.generatedLine ||
    (a.generatedLine = b.generatedLine && a.generatedColumn ≤ b.generatedColumn)

/-- Of neighbours at one place, only the first. -/
def firstOfEach : List Mapping → List Mapping
  | [] => []
  | a :: rest =>
    match firstOfEach rest with
    | [] => [a]
    | b :: bs => if a.generated = b.generated then a :: bs else a :: b :: bs

/-- The mappings as they are written: in the order of the script, one for each place. -/
def ordered (m : SourceMap) : List Mapping := firstOfEach (m.mappings.mergeSort precedes)

/-- The map as it is handed over to be written. -/
def finished (m : SourceMap) : SourceMap := { m with mappings := m.ordered }

end SourceMap

/-! ### Writing -/

/-- What writes a finished map down. A map puts its mappings in order and leaves the format to a writer. -/
abbrev MapWriter := SourceMap → String

/-- A map as a writer writes it. -/
def SourceMap.writtenBy (w : MapWriter) (m : SourceMap) : String := w m.finished

/-- The index that stands for no source at all. -/
def noSource : Nat := 4294967295

/-- A mapping without what it refers to in vain, in a map with `names` names. -/
def Mapping.known (names : Nat) (m : Mapping) : Mapping :=
  { m with source := m.source.filter (· ≠ noSource), name := m.name.filter (· < names) }

/-- A writer for JSON. The texts of the sources are written if there is any. -/
def MapWriter.json : MapWriter := fun m =>
  let file := m.file.toList.map fun name => ("file", Json.writeText name)
  let contents :=
    if m.sources.any fun s => s.content.isSome then
      [("sourcesContent", Json.writeArray (m.sources.map fun s => Json.writeTextOrNull s.content))]
    else []
  let mappings := SourceMap.encode (m.mappings.map fun x => (x.known m.names.length).segment)
  Json.writeObject <|
    [("version", "3")] ++ file ++
    [("sources", Json.writeArray (m.sources.map fun s => Json.writeText s.path))] ++ contents ++
    [("names", Json.writeArray (m.names.map Json.writeText)), ("mappings", Json.writeText mappings)]

/-- The map as JSON. -/
def SourceMap.json (m : SourceMap) : String := m.writtenBy .json

end Story
