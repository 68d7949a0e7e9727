import Story.Json.Magnitude

/-!
# Reading JSON

A value of a known shape is read from left to right, and the first fault decides. There are three
kinds of faults: the text is not JSON, it is JSON of another shape, or it ends too early. So nothing
is read twice, and no general tree of values is built: what is not wanted is skipped.

* `peek` looks at the next character that matters;
* `text`, `number` and `word` read the small things, whose first character has been seen;
* `mistaken` says what is wrong with a value of another shape: that it has another shape, unless it
  is not even JSON;
* `skipAny` skips any value.
-/

namespace Story.Json

/-- What can be wrong with a text. -/
inductive Fault where
  /-- It is not JSON. -/
  | malformed
  /-- It is JSON of another shape. -/
  | misshapen
  /-- It ends too early. -/
  | ended
deriving DecidableEq

/-- A reader of the remaining characters. -/
abbrev Reader := StateT (List Char) (Except Fault)

/-- Whether a character may stand between values. -/
def isBlank (c : Char) : Bool := c = ' ' || c = '\n' || c = '\t' || c = '\r'

/-- The next character that is not blank. It stays unread. -/
def peek : Reader (Option Char) := do
  let cs := (← get).dropWhile isBlank
  set cs
  return cs.head?

/-- Drop one character. -/
def advance : Reader Unit := modify List.tail

/-- Read the given characters. -/
def word : List Char → Reader Unit
  | [] => return
  | c :: rest => do
    match ← get with
    | [] => throw .ended
    | d :: cs =>
      if d ≠ c then throw .malformed
      set cs
      word rest

/-! ### Texts -/

/-- The value of a hexadecimal digit. -/
def hexValue? (c : Char) : Option Nat :=
  if '0' ≤ c ∧ c ≤ '9' then some (c.toNat - 48)
  else if 'a' ≤ c ∧ c ≤ 'f' then some (c.toNat - 87)
  else if 'A' ≤ c ∧ c ≤ 'F' then some (c.toNat - 55)
  else none

/-- The number that the next four hexadecimal digits give. The text ends too early if it has not
even four bytes left. -/
def hexNumber (cs : List Char) : Except Fault Nat :=
  if (String.ofList (cs.take 4)).utf8ByteSize < 4 then throw .ended
  else
    match (cs.take 4).map hexValue? with
    | [some a, some b, some c, some d] => return ((a * 16 + b) * 16 + c) * 16 + d
    | _ => throw .malformed

/-- What a character means after a backslash. -/
def escaped? (c : Char) : Option Char :=
  [('"', '"'), ('\\', '\\'), ('/', '/'), ('b', '\x08'), ('f', '\x0c'), ('n', '\n'), ('r', '\r'),
   ('t', '\t')].lookup c

/-- Whether the number is the first half of a pair that gives one character. -/
def isHighHalf (n : Nat) : Bool := 0xd800 ≤ n && n ≤ 0xdbff

/-- Whether the number is the second half of such a pair. -/
def isLowHalf (n : Nat) : Bool := 0xdc00 ≤ n && n ≤ 0xdfff

/-- The rest of a text after its opening quote, and what remains after the closing one. -/
def textChars : List Char → Except Fault (List Char × List Char)
  | [] => throw .ended
  | '"' :: cs => return ([], cs)
  | ['\\'] => throw .ended
  | '\\' :: 'u' :: cs => do
    let n ← hexNumber cs
    -- The second half of a pair cannot come first.
    if isLowHalf n then throw .malformed
    else if isHighHalf n then
      match _hrest : cs.drop 4 with
      -- The text ends where the second half should be.
      | [] | ['\\'] => throw .ended
      | '\\' :: 'u' :: more =>
        let m ← hexNumber more
        if !isLowHalf m then throw .malformed
        let (rest, after) ← textChars (more.drop 4)
        return (Char.ofNat ((n - 0xd800) * 1024 + (m - 0xdc00) + 0x10000) :: rest, after)
      | _ => throw .malformed
    else
      let (rest, after) ← textChars (cs.drop 4)
      return (Char.ofNat n :: rest, after)
  | '\\' :: c :: cs =>
    match escaped? c with
    | none => throw .malformed
    | some d => do
      let (rest, after) ← textChars cs
      return (d :: rest, after)
  | c :: cs => do
    if c.toNat < 32 then throw .malformed
    let (rest, after) ← textChars cs
    return (c :: rest, after)
termination_by cs => cs.length
decreasing_by
  · have h := congrArg List.length _hrest
    simp only [List.length_drop, List.length_cons] at h ⊢
    omega
  all_goals simp only [List.length_drop, List.length_cons]; omega

/-- A text. -/
def text : Reader String := do
  advance
  let (chars, after) ← (textChars (← get) : Except Fault _)
  set after
  return String.ofList chars

/-- What remains after a text that is skipped. Halves of pairs are not looked at. -/
def afterText : List Char → Except Fault (List Char)
  | [] => throw .ended
  | '"' :: cs => return cs
  | ['\\'] => throw .ended
  | '\\' :: 'u' :: cs => do
    let _ ← hexNumber cs
    afterText (cs.drop 4)
  | '\\' :: c :: cs => if (escaped? c).isNone then throw .malformed else afterText cs
  | c :: cs => if c.toNat < 32 then throw .malformed else afterText cs
termination_by cs => cs.length
decreasing_by all_goals simp only [List.length_drop, List.length_cons]; omega

/-- Skip a text. -/
def skipText : Reader Unit := do
  advance
  set (← (afterText (← get) : Except Fault _))

/-! ### Numbers -/

/-- A number: how it is written matters. -/
inductive Number where
  /-- Digits only, and not too many of them. -/
  | natural (value : Nat)
  /-- With a sign, a fraction or an exponent, or with more digits. -/
  | other
deriving DecidableEq

/-- Digits, possibly none. -/
def digits : Reader (List Char) := do
  let cs ← get
  let found := cs.takeWhile Char.isDigit
  set (cs.drop found.length)
  return found

/-- The number that digits give. -/
def digitsValue (ds : List Char) : Nat := ds.foldl (fun n d => 10 * n + (d.toNat - 48)) 0

/-- The digits before point and exponent: no zero before other digits. Where there is none, the text
is malformed, or ends too early if that is what `atEnd` says. -/
def wholePart (atEnd : Fault) : Reader (List Char) := do
  match ← get with
  | [] => throw atEnd
  | '0' :: cs =>
    if cs.head?.any Char.isDigit then throw .malformed
    set cs
    return ['0']
  | c :: _ => if c.isDigit then digits else throw .malformed

/-- The digits after the point, if there is one. -/
def fraction (atEnd : Fault) : Reader (Option (List Char)) := do
  if (← get).head? ≠ some '.' then return none
  advance
  let found ← digits
  if found.isEmpty then
    if (← get).isEmpty then throw atEnd else throw .malformed
  return some found

/-- The exponent, if there is one: its sign and its digits. -/
def exponent (atEnd : Fault) : Reader (Option (Bool × List Char)) := do
  if !(← get).head?.any (fun c => c = 'e' || c = 'E') then return none
  advance
  let isNegative := (← get).head? = some '-'
  if (← get).head?.any (fun c => c = '+' || c = '-') then advance
  if (← get).isEmpty then throw atEnd
  let found ← digits
  if found.isEmpty then throw .malformed
  return some (isNegative, found)

/-- The digits as numbers. -/
def digitValues (ds : List Char) : List Nat := ds.map fun d => d.toNat - 48

/-- The power of ten that an exponent stands for. -/
def exponentValue : Option (Bool × List Char) → Int
  | none => 0
  | some (isNegative, ds) => if isNegative then -(digitsValue ds : Int) else digitsValue ds

/-- A number. It is malformed if it is too large for double precision. -/
def number : Reader Number := do
  let isNegative := (← get).head? = some '-'
  if isNegative then advance
  let whole ← wholePart .ended
  let part ← fraction .ended
  let power ← exponent .ended
  let decimal := Decimal.ofDigits (digitValues whole) (digitValues (part.getD []))
  -- A sign, a fraction or an exponent makes a number another one, even if its value is whole.
  let isExact := !isNegative && part.isNone && power.isNone
  if isExact && decimal.power = 0 then return .natural decimal.significand
  if (decimal.scale (exponentValue power)).isTooLarge then throw .malformed
  return .other

/-- Skip a number. Here a number that ends too early is malformed. -/
def skipNumber : Reader Unit := do
  if (← get).head? = some '-' then advance
  let _ ← wholePart .malformed
  let _ ← fraction .malformed
  let _ ← exponent .malformed

/-! ### Values -/

/-- Whether a number starts with the character. -/
def startsNumber (c : Char) : Bool := c = '-' || c.isDigit

/-- What is wrong with a value that has another shape than expected. Words, numbers and texts are
read to their end, since they may be malformed. -/
def mistaken {α : Type} : Reader α := do
  match ← peek with
  | none => throw .ended
  | some 'n' => word "null".toList
  | some 't' => word "true".toList
  | some 'f' => word "false".toList
  | some '"' => let _ ← text
  -- What is inside a list or an object is not looked at.
  | some '[' | some '\x7b' => pure ()
  | some c => if startsNumber c then let _ ← number else throw .malformed
  throw .misshapen

/-- After a value in a list or an object that `close` closes: whether another one follows. -/
def another (close : Char) : Reader Bool := do
  match ← peek with
  | none => throw .ended
  | some c =>
    if c = ',' then advance; return true
    else if c = close then advance; return false
    else throw .malformed

/-- A colon. -/
def colon : Reader Unit := do
  match ← peek with
  | none => throw .ended
  | some c => if c = ':' then advance else throw .malformed

mutual

/-- Skip a value. Each list or object takes at most two units of `fuel` for each of its characters.
-/
def skipValue : Nat → Reader Unit
  | 0 => throw .ended
  | fuel + 1 => do
    match ← peek with
    | none => throw .ended
    | some 'n' => word "null".toList
    | some 't' => word "true".toList
    | some 'f' => word "false".toList
    | some '"' => skipText
    | some '[' =>
      advance
      match ← peek with
      | none => throw .ended
      | some c => if c = ']' then advance else skipItems fuel
    | some '\x7b' =>
      advance
      match ← peek with
      | none => throw .ended
      | some c => if c = '\x7d' then advance else skipMembers fuel
    | some c => if startsNumber c then skipNumber else throw .malformed

/-- Skip values up to the end of a list. -/
def skipItems : Nat → Reader Unit
  | 0 => throw .ended
  | fuel + 1 => do
    skipValue fuel
    if ← another ']' then skipItems fuel

/-- Skip keys and values up to the end of an object. -/
def skipMembers : Nat → Reader Unit
  | 0 => throw .ended
  | fuel + 1 => do
    match ← peek with
    | none => throw .ended
    | some c => if c = '"' then skipText else throw .malformed
    colon
    skipValue fuel
    if ← another '\x7d' then skipMembers fuel

end

/-- Skip any value. -/
def skipAny : Reader Unit := do skipValue (2 * (← get).length + 2)

end Story.Json
