import Story.Text.NameCharacters

/-!
# Words of embedded code

Which words are names, which are reserved, which name a well-known global of the script, and which
parts of a number a word can be.
-/

namespace Story

/-! ### Names -/

/-- Whether a name may start with the character, `$` and `_` apart. -/
def isNameStart (c : Char) : Bool :=
  if c.toNat < 128 then c.isAlpha else inRanges startRanges c.toNat 0 startRanges.size

/-- Whether a name may go on with the character, `$` apart. -/
def isNameContinue (c : Char) : Bool :=
  if c.toNat < 128 then c.isAlphanum || c == '_'
  else inRanges startRanges c.toNat 0 startRanges.size ||
    inRanges furtherRanges c.toNat 0 furtherRanges.size

/-- Whether the word is a name: a start and any number of characters to go on with. -/
def isIdentifier (word : String) : Bool :=
  match word.toList with
  | [] => false
  | c :: cs =>
    (c == '$' || c == '_' || isNameStart c) && cs.all fun d => d == '$' || isNameContinue d

/-- Words that never name anything. -/
def reservedWords : List String :=
  ["async", "await", "break", "case", "catch", "class", "const", "continue", "debugger",
   "default", "delete", "do", "else", "export", "extends", "false", "finally", "for",
   "function", "if", "import", "in", "instanceof", "let", "new", "null", "return", "super",
   "switch", "this", "throw", "true", "try", "typeof", "undefined", "var", "void", "while",
   "with", "yield"]

/-- Names that the script knows without a declaration. -/
def globalNames : List String :=
  ["Array", "BigInt", "Boolean", "Date", "Error", "Infinity", "Intl", "JSON", "Map", "Math",
   "NaN", "Number", "Object", "Promise", "Proxy", "RangeError", "Reflect", "RegExp", "Set",
   "String", "Symbol", "TypeError", "WeakMap", "WeakSet", "arguments", "clearTimeout",
   "console", "context", "decodeURI", "decodeURIComponent", "encodeURI",
   "encodeURIComponent", "environment", "globalThis", "isFinite", "isNaN", "module",
   "parseFloat", "parseInt", "require", "serializer", "setTimeout"]

/-- Whether the word is reserved. -/
def isReserved (word : String) : Bool := reservedWords.contains word

/-- Whether the word is a name and not reserved. -/
def isFreeName (word : String) : Bool := isIdentifier word && !isReserved word

/-- Whether the word names a well-known global. -/
def isGlobalName (word : String) : Bool := globalNames.contains word

/-! ### Numbers

A dot or a sign cuts a number into several tokens, so a word can be a whole number or a part of one.
-/

/-- A digit, or the underscore that may stand between digits. -/
def isDigitOrGap (c : Char) : Bool := c.isDigit || c == '_'

/-- Whether a number starts with the word. -/
def startsNumber (word : String) : Bool :=
  match word.toList with
  | [] => false
  | c :: _ => c.isDigit

/-- Whether there are digits only. -/
def areDigits (cs : List Char) : Bool := !cs.isEmpty && cs.all isDigitOrGap

/-- Whether the word has digits only. -/
def isDigits (word : String) : Bool := areDigits word.toList

/-- Whether the word ends in an exponent mark whose sign is still to come: digits, if any, and `e`.
-/
def endsWithOpenExponent (word : String) : Bool :=
  match word.toList.reverse with
  | [] => false
  | c :: cs => (c == 'e' || c == 'E') && cs.all isDigitOrGap

/-- Whether the word can stand after the dot of a number: digits, and after them perhaps an exponent
mark with or without digits. -/
def isFraction (word : String) : Bool :=
  let cs := word.toList
  match cs.dropWhile isDigitOrGap with
  | [] => !cs.isEmpty
  | c :: rest =>
    -- An exponent mark needs a digit before it.
    (cs.head?.map isDigitOrGap).getD false && (c == 'e' || c == 'E') &&
      (rest.isEmpty || areDigits rest)

end Story
