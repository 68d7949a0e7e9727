import Story.Pattern.Basic

/-!
# Reading patterns

`Pattern.ofText` reads a pattern, and `PatternError` says why a text is none. A leading `(?i)` makes
case irrelevant.

Inside brackets a character stands for itself, two with a hyphen between them for all from the one
to the other, and a set in brackets for its characters. Such items are joined by standing side by
side; `&&`, `--` and `~~` take what is in both sides, in the left side only, or in one of them, and
are carried out from left to right. Hyphens right after the opening bracket stand for themselves,
and so does a closing bracket there.

What is read is a `Part`: the pattern, and how deep its text is nested, since that is limited.
-/

namespace Story

/-- Why a text is no pattern. -/
inductive PatternError where
  | unclosedGroup | unopenedGroup | unclosedClass | invalidRange | nothingToRepeat
  | invalidCount | invalidEscape | tooDeep | tooLarge
deriving DecidableEq

/-- How large a pattern may be, in bytes. -/
def patternLimit : Nat := 10485760

/-- The error's text. -/
def PatternError.message : PatternError → String
  | unclosedGroup => "regex parse error: unclosed group"
  | unopenedGroup => "regex parse error: unopened group"
  | unclosedClass => "regex parse error: unclosed character class"
  | invalidRange => "regex parse error: invalid character class range"
  | nothingToRepeat => "regex parse error: repetition operator missing expression"
  | invalidCount => "regex parse error: invalid repetition count"
  | invalidEscape => "regex parse error: unrecognized escape sequence"
  | tooDeep => "regex parse error: too deeply nested"
  | tooLarge => "Compiled regex exceeds size limit of " ++ toString patternLimit ++ " bytes."

namespace Pattern

/-! ### Escapes -/

/-- What a backslash and the characters after it stand for. -/
inductive Escape where
  /-- One character. -/
  | char (c : Char)
  /-- Several characters. -/
  | set (set : CharSet)

/-- Whether a backslash before the character makes it stand for itself. -/
def isEscapable (c : Char) : Bool :=
  c.toNat < 128 && !c.isAlphanum && c != '<' && c != '>'

/-- What the characters after a backslash stand for. -/
def readEscape : List Char → Except PatternError (Escape × List Char)
  | [] => throw .invalidEscape
  | 'd' :: cs => return (.set .digits, cs)
  | 'D' :: cs => return (.set (.complement .digits), cs)
  | 's' :: cs => return (.set .space, cs)
  | 'S' :: cs => return (.set (.complement .space), cs)
  | 'a' :: cs => return (.char '\x07', cs)
  | 'f' :: cs => return (.char '\x0c', cs)
  | 'n' :: cs => return (.char '\n', cs)
  | 'r' :: cs => return (.char '\r', cs)
  | 't' :: cs => return (.char '\t', cs)
  | 'v' :: cs => return (.char '\x0b', cs)
  | c :: cs => if isEscapable c then return (.char c, cs) else throw .invalidEscape

/-! ### Classes -/

/-- A set of characters and how deep its text is nested. -/
structure SetPart where
  /-- The set. -/
  set : CharSet
  /-- How deep its text is nested. -/
  depth : Nat

/-- Items that stand side by side, the last one first. -/
def SetPart.join : List SetPart → SetPart
  | [] => ⟨.empty, 0⟩
  | [item] => item
  | items =>
    items.foldl
      (fun joined item => ⟨.union item.set joined.set, max item.depth.succ joined.depth⟩)
      ⟨.empty, 0⟩

/-- The operation that two signs stand for between the items of a class. -/
def setOperation? : Char → Option (CharSet → CharSet → CharSet)
  | '&' => some .intersection
  | '-' => some .difference
  | '~' => some .symmetricDifference
  | _ => none

/-- The left side of an operation that is still to be carried out. -/
abbrev Pending := Option ((CharSet → CharSet → CharSet) × SetPart)

/-- Carry out an operation, if one is to be carried out. -/
def Pending.finish : Pending → SetPart → SetPart
  | none, right => right
  | some (operation, left), right =>
    ⟨operation left.set right.set, max left.depth right.depth + 1⟩

/-- The set that a name between `[:` and `:]` stands for, after the opening bracket. -/
def readNamedSet (ignoresCase : Bool) : List Char → Option (CharSet × List Char)
  | ':' :: cs =>
    let isNegated := cs.head? = some '^'
    let cs := if isNegated then cs.tail else cs
    let name := cs.takeWhile fun c => c ≠ ':'
    match CharSet.named? (String.ofList name), cs.drop name.length with
    | some rs, ':' :: ']' :: cs =>
      let set := CharSet.ranges ignoresCase rs
      some (if isNegated then .complement set else set, cs)
    | _, _ => none
  | _ => none

/-- A character or what a backslash makes of it. -/
def readClassItem : List Char → Except PatternError (Escape × List Char)
  | [] => throw .unclosedClass
  | '\\' :: cs => readEscape cs
  | c :: cs => return (.char c, cs)

/-- A character, or two with a hyphen between them. Before another hyphen or the closing bracket, a
hyphen does not make a range. -/
def readRange (ignoresCase : Bool) (cs : List Char) :
    Except PatternError (CharSet × List Char) := do
  let (first, cs) ← readClassItem cs
  let alone : CharSet := match first with
    | .char c => .single ignoresCase c
    | .set s => s
  match cs with
  | [] => throw .unclosedClass
  | ['-'] => throw .unclosedClass
  | '-' :: c :: rest =>
    -- The hyphen is read as the next item.
    if c = ']' ∨ c = '-' then return (alone, '-' :: c :: rest)
    else
      let (second, cs) ← readClassItem (c :: rest)
      match first, second with
      | .char a, .char b =>
        if b < a then throw .invalidRange
        return (.ranges ignoresCase [(a.toNat, b.toNat)], cs)
      | _, _ => throw .invalidRange
  | cs => return (alone, cs)

/-- What a class starts with: hyphens, or else a closing bracket. -/
def classStart (ignoresCase : Bool) (cs : List Char) : List SetPart × List Char :=
  let hyphens := cs.takeWhile fun c => c = '-'
  let items := hyphens.map fun c => ⟨.single ignoresCase c, 0⟩
  match hyphens, cs with
  | [], ']' :: cs => ([⟨.single ignoresCase ']', 0⟩], cs)
  | _, cs => (items, cs.drop hyphens.length)

mutual

/-- A class after its opening bracket. -/
def readClass (ignoresCase : Bool) : Nat → List Char → Except PatternError (SetPart × List Char)
  | 0, _ => throw .unclosedClass
  | fuel + 1, cs => do
    let isNegated := cs.head? = some '^'
    let (items, cs) := classStart ignoresCase (if isNegated then cs.tail else cs)
    let (inner, cs) ← readItems ignoresCase fuel items none cs
    return (⟨if isNegated then .complement inner.set else inner.set, inner.depth + 1⟩, cs)

/-- The items of a class up to its closing bracket, after those in `items`, the last one first. -/
def readItems (ignoresCase : Bool) :
    Nat → List SetPart → Pending → List Char → Except PatternError (SetPart × List Char)
  | 0, _, _, _ => throw .unclosedClass
  | fuel + 1, items, pending, cs =>
    match cs with
    | [] => throw .unclosedClass
    | ']' :: cs => return (pending.finish (SetPart.join items), cs)
    -- A bracket that opens no named set opens a class.
    | '[' :: cs =>
      match readNamedSet ignoresCase cs with
      | some (set, cs) => readItems ignoresCase fuel (⟨set, 0⟩ :: items) pending cs
      | none => do
        let (inner, cs) ← readClass ignoresCase fuel cs
        readItems ignoresCase fuel (inner :: items) pending cs
    | c :: cs => do
      -- One such sign alone is an ordinary character.
      match setOperation? c, cs.head? == some c with
      | some operation, true =>
        let left := pending.finish (SetPart.join items)
        readItems ignoresCase fuel [] (some (operation, left)) cs.tail
      | _, _ =>
        let (set, cs) ← readRange ignoresCase (c :: cs)
        readItems ignoresCase fuel (⟨set, 0⟩ :: items) pending cs

end

/-! ### Repetitions -/

/-- A pattern and how deep its text is nested. -/
structure Part where
  /-- The pattern. -/
  pattern : Pattern
  /-- How deep its text is nested. -/
  depth : Nat

/-- Counts are below this bound. -/
def countBound : Nat := 4294967296

/-- A number, if there is one, with white space around it. -/
def readNumber (cs : List Char) : Option Nat × List Char :=
  let cs := cs.dropWhile isWhiteSpace
  let digits := cs.takeWhile Char.isDigit
  let rest := (cs.drop digits.length).dropWhile isWhiteSpace
  let n := digits.foldl (fun n d => 10 * n + (d.toNat - 48)) 0
  (if digits.isEmpty || n ≥ countBound then none else some n, rest)

/-- The counts of a repetition, after the opening brace: at least and, if bounded, at most. -/
def readCounts (cs : List Char) : Except PatternError ((Nat × Option Nat) × List Char) :=
  match readNumber cs with
  | (none, _) => throw .invalidCount
  | (some least, '\x7d' :: cs) => return ((least, some least), cs)
  | (some least, ',' :: '\x7d' :: cs) => return ((least, none), cs)
  | (some least, ',' :: cs) =>
    match readNumber cs with
    | (some most, '\x7d' :: cs) =>
      if most < least then throw .invalidCount else return ((least, some most), cs)
    | _ => throw .invalidCount
  | _ => throw .invalidCount

/-- Without the mark that asks for few rounds. -/
def dropLazy : List Char → List Char
  | '?' :: cs => cs
  | cs => cs

/-- The part so many times. -/
def Part.times (p : Part) (least : Nat) (most : Option Nat) : Part :=
  ⟨.times p.pattern least most, p.depth + 1⟩

/-- The repetitions that follow a part. -/
def readRepetitions : Nat → Part → List Char → Except PatternError (Part × List Char)
  | 0, p, cs => return (p, cs)
  | fuel + 1, p, cs =>
    match cs with
    | '*' :: cs => readRepetitions fuel (p.times 0 none) (dropLazy cs)
    | '+' :: cs => readRepetitions fuel (p.times 1 none) (dropLazy cs)
    | '?' :: cs => readRepetitions fuel (p.times 0 (some 1)) (dropLazy cs)
    | '\x7b' :: cs => do
      let ((least, most), cs) ← readCounts cs
      readRepetitions fuel (p.times least most) (dropLazy cs)
    | cs => return (p, cs)

/-! ### Whole patterns -/

/-- Parts under one operation, the last one first. A single part needs no operation. -/
def Part.join (operation : Pattern → Pattern → Pattern) : List Part → Part
  | [] => ⟨.nothing, 0⟩
  | [part] => part
  | last :: parts =>
    parts.foldl
      (fun joined p => ⟨operation p.pattern joined.pattern, max p.depth.succ joined.depth⟩)
      ⟨last.pattern, last.depth + 1⟩

mutual

/-- Patterns divided by `|`, up to the end of the group; `branches` came before, the last one first,
and `parts` start the next one. -/
def readAlternatives (ignoresCase : Bool) :
    Nat → List Part → List Part → List Char → Except PatternError (Part × List Char)
  | 0, _, _, _ => throw .unclosedGroup
  | fuel + 1, branches, parts, cs => do
    let (branch, cs) ← readSequence ignoresCase fuel parts cs
    match cs with
    | '|' :: cs => readAlternatives ignoresCase fuel (branch :: branches) [] cs
    | cs => return (Part.join .either (branch :: branches), cs)

/-- Patterns one after the other, after those in `parts`, the last one first. -/
def readSequence (ignoresCase : Bool) :
    Nat → List Part → List Char → Except PatternError (Part × List Char)
  | 0, _, _ => throw .unclosedGroup
  | fuel + 1, parts, cs =>
    match cs with
    | [] => return (Part.join .seq parts, [])
    | c :: rest =>
      if c = '|' ∨ c = ')' then return (Part.join .seq parts, c :: rest)
      else do
        -- Repetitions bind closer than standing side by side.
        let (atom, cs) ← readAtom ignoresCase fuel (c :: rest)
        let (atom, cs) ← readRepetitions cs.length atom cs
        readSequence ignoresCase fuel (atom :: parts) cs

/-- One pattern, without the repetitions after it. -/
def readAtom (ignoresCase : Bool) : Nat → List Char → Except PatternError (Part × List Char)
  | 0, _ => throw .unclosedGroup
  | fuel + 1, cs =>
    match cs with
    | [] => throw .nothingToRepeat
    | '(' :: cs => do
      let inside := match cs with
        | '?' :: ':' :: cs => cs
        | cs => cs
      let (inner, cs) ← readAlternatives ignoresCase fuel [] [] inside
      match cs with
      | ')' :: cs => return (⟨inner.pattern, inner.depth + 1⟩, cs)
      | _ => throw .unclosedGroup
    | '[' :: cs => do
      let (part, cs) ← readClass ignoresCase (2 * cs.length + 2) cs
      return (⟨.one part.set, part.depth⟩, cs)
    | '.' :: cs => return (⟨.one .notLineFeed, 0⟩, cs)
    | '^' :: cs => return (⟨.start, 0⟩, cs)
    | '$' :: cs => return (⟨.finish, 0⟩, cs)
    | '\\' :: cs => do
      match ← readEscape cs with
      | (.char c, cs) => return (⟨.one (.single ignoresCase c), 0⟩, cs)
      | (.set set, cs) => return (⟨.one set, 0⟩, cs)
    | c :: cs =>
      -- A sign of repetition needs something before it.
      if c = '*' ∨ c = '+' ∨ c = '?' ∨ c = '\x7b' then throw .nothingToRepeat
      else return (⟨.one (.single ignoresCase c), 0⟩, cs)

end

/-- The text without a leading `(?i)`, and whether it was there. -/
def splitFlag : List Char → Bool × List Char
  | '(' :: '?' :: 'i' :: ')' :: cs => (true, cs)
  | cs => (false, cs)

/-- How deep the text of a pattern may be nested. -/
def depthLimit : Nat := 250

/-- The bytes that a unit of a pattern's size takes. -/
def unitBytes : Nat := 24

/-- Read a pattern. The mark that makes case irrelevant is a part of its own. -/
def ofText (text : String) : Except PatternError Pattern := do
  let (ignoresCase, cs) := splitFlag text.toList
  let flag : List Part := if ignoresCase then [⟨.nothing, 0⟩] else []
  -- Three calls for each character are enough, one of each reader.
  let (part, rest) ← readAlternatives ignoresCase (3 * cs.length + 3) [] flag cs
  if !rest.isEmpty then throw .unopenedGroup
  if depthLimit < part.depth then throw .tooDeep
  if patternLimit < unitBytes * part.pattern.size then throw .tooLarge
  return part.pattern

end Pattern

end Story
