import Story.Settings.Basic

/-!
# Reading settings

Settings are written as a JSON object, or as an array with the fields in order. Fields may come in
any order, fields with other names are skipped, and all but the two directories may be missing.
While they are read, the fields are kept in a `Draft`.
-/

namespace Story

/-- Settings that are being read: the fields so far. -/
structure Draft where
  /-- The directory of the stories. -/
  sourceRoot : Option String
  /-- The directory of the scripts and source maps. -/
  scriptRoot : Option String
  /-- The directory of the typed copies. -/
  typedRoot : Option (Option String)
  /-- Whether scripts and source maps are written. -/
  writesScripts : Option Bool
  /-- Whether typed copies are written. -/
  writesTyped : Option Bool
  /-- The environment of the scripts. -/
  environment : Option (Option String)
  /-- Patterns of the files that are compiled. -/
  included : Option (Option (List String))
  /-- Patterns of the files that are not. -/
  excluded : Option (Option (List String))
  /-- Columns of a story's text for each level of indentation. -/
  indentSize : Option Nat
deriving DecidableEq

open Json (Reader Fault peek advance)

/-! ### Values of fields -/

namespace Json

/-- A text. -/
def readText : Reader String := do
  if (← peek) = some '"' then text else mistaken

/-- `true` or `false`. -/
def readFlag : Reader Bool := do
  match ← peek with
  | some 't' => word "true".toList; return true
  | some 'f' => word "false".toList; return false
  | _ => mistaken

/-- Whole numbers are below this bound. -/
def numberBound : Nat := 4294967296

/-- A whole number. -/
def readCount : Reader Nat := do
  if (← peek).any startsNumber then
    match ← number with
    | .natural n => if n < numberBound then return n else throw .misshapen
    | .other => throw .misshapen
  else mistaken

/-- `null`, or a value. -/
def readOptional {α : Type} (value : Reader α) : Reader (Option α) := do
  if (← peek) = some 'n' then
    word "null".toList
    return none
  return some (← value)

/-- After an item of a list, or before the first: whether one follows. The closing bracket stays
unread, and it may not follow a comma. -/
def hasItem (isFirst : Bool) : Reader Bool := do
  match ← peek with
  | none => throw .ended
  | some c =>
    if c = ']' then return false
    else if isFirst then return true
    else if c = ',' then
      advance
      match ← peek with
      | none => throw .ended
      | some d => if d = ']' then throw .malformed else return true
    else throw .malformed

/-- The texts of a list, up to its closing bracket. Each has characters of its own, so the length of
the text is enough `fuel`. -/
def readTextsFrom (isFirst : Bool) : Nat → Reader (List String)
  | 0 => throw .ended
  | fuel + 1 => do
    if ← hasItem isFirst then
      let first ← readText
      return first :: (← readTextsFrom false fuel)
    advance
    return []

/-- A list of texts. -/
def readTexts : Reader (List String) := do
  if (← peek) = some '[' then
    advance
    readTextsFrom true ((← get).length + 1)
  else mistaken

end Json

/-! ### Fields -/

namespace Draft

/-- Nothing has been read. -/
def empty : Draft := ⟨none, none, none, none, none, none, none, none, none⟩

/-- Whether a field has been read. -/
def has (d : Draft) : Field → Bool
  | .sourceRoot => d.sourceRoot.isSome
  | .scriptRoot => d.scriptRoot.isSome
  | .typedRoot => d.typedRoot.isSome
  | .writesScripts => d.writesScripts.isSome
  | .writesTyped => d.writesTyped.isSome
  | .environment => d.environment.isSome
  | .included => d.included.isSome
  | .excluded => d.excluded.isSome
  | .indentSize => d.indentSize.isSome

/-- Read the value of a field. -/
def readField (d : Draft) : Field → Reader Draft
  | .sourceRoot => return { d with sourceRoot := some (← Json.readText) }
  | .scriptRoot => return { d with scriptRoot := some (← Json.readText) }
  | .typedRoot => return { d with typedRoot := some (← Json.readOptional Json.readText) }
  | .writesScripts => return { d with writesScripts := some (← Json.readFlag) }
  | .writesTyped => return { d with writesTyped := some (← Json.readFlag) }
  | .environment => return { d with environment := some (← Json.readOptional Json.readText) }
  | .included => return { d with included := some (← Json.readOptional Json.readTexts) }
  | .excluded => return { d with excluded := some (← Json.readOptional Json.readTexts) }
  | .indentSize => return { d with indentSize := some (← Json.readCount) }

/-- The settings, if the two directories are there. -/
def finish (d : Draft) : Except Fault Settings :=
  match d.sourceRoot, d.scriptRoot with
  | some sourceRoot, some scriptRoot =>
    return ⟨sourceRoot, scriptRoot, d.typedRoot.join, d.writesScripts.getD true,
      d.writesTyped.getD false, d.environment.join, d.included.join, d.excluded.join,
      d.indentSize.getD 2⟩
  | _, _ => throw .misshapen

/-- Read fields with their names up to the end of the object. Each has characters of its own, so the
length of the text is enough `fuel`. -/
def readMembers : Nat → Draft → Reader Draft
  | 0, _ => throw .ended
  | fuel + 1, d => do
    match ← peek with
    | none => throw .ended
    | some c =>
      if c ≠ '"' then throw .malformed
      let key ← Json.text
      let d ← match Field.all.find? fun f => f.name = key with
        | none => do
          Json.colon
          Json.skipAny
          pure d
        | some field => do
          -- A field that is there twice is refused before its value is read.
          if d.has field then throw .misshapen
          Json.colon
          d.readField field
      match ← peek with
      | none => throw .ended
      | some c =>
        -- The closing brace is read after the fields have been checked.
        if c = '\x7d' then return d
        else if c = ',' then
          advance
          readMembers fuel d
        else throw .malformed

/-- Read fields in order, up to the end of the array. -/
def readItems (isFirst : Bool) : List Field → Draft → Reader Draft
  | [], d => return d
  | field :: rest, d => do
    if ← Json.hasItem isFirst then
      let d ← d.readField field
      readItems false rest d
    else return d

end Draft

namespace Settings

/-- Read the closing bracket of the settings. -/
def readClosing (closing : Char) : Reader Unit := do
  match ← peek with
  | none => throw .ended
  | some c => if c = closing then advance else throw .malformed

/-- Read settings. Missing fields are a fault before anything that follows is looked at. -/
def read : Reader Settings := do
  match ← peek with
  | none => throw .ended
  | some '\x7b' =>
    advance
    let d ← if (← peek) = some '\x7d' then pure Draft.empty
      else Draft.readMembers ((← get).length + 1) .empty
    let s ← (d.finish : Except Fault Settings)
    readClosing '\x7d'
    return s
  | some '[' =>
    advance
    let d ← Draft.readItems true Field.all .empty
    let s ← (d.finish : Except Fault Settings)
    readClosing ']'
    return s
  | some _ => Json.mistaken

/-- The settings that a text holds, and nothing else. -/
def ofText (text : String) : Except Fault Settings := do
  let (s, rest) ← read.run text.toList
  if (rest.dropWhile Json.isBlank).isEmpty then return s else throw .malformed

end Settings

end Story
