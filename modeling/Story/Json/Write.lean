/-!
# Writing JSON

The few shapes of JSON that are written: texts, `null`, arrays and objects, without any blanks.
-/

namespace Story.Json

/-- The hexadecimal digit of a number below sixteen. -/
def hexDigit (n : Nat) : Char := "0123456789abcdef".toList.getD n '0'

/-- One character of a text. -/
def writeChar (c : Char) : List Char :=
  if c = '"' then ['\\', '"']
  else if c = '\\' then ['\\', '\\']
  else if c = '\x08' then ['\\', 'b']
  else if c = '\x0c' then ['\\', 'f']
  else if c = '\n' then ['\\', 'n']
  else if c = '\r' then ['\\', 'r']
  else if c = '\t' then ['\\', 't']
  else if c.toNat < 32 then
    ['\\', 'u', '0', '0', hexDigit (c.toNat / 16), hexDigit (c.toNat % 16)]
  else [c]

/-- A text between quotes. -/
def writeText (text : String) : String :=
  "\"" ++ String.ofList (text.toList.flatMap writeChar) ++ "\""

/-- A text, or `null` if there is none. -/
def writeTextOrNull : Option String → String
  | none => "null"
  | some text => writeText text

/-- An array of written values. -/
def writeArray (values : List String) : String := "[" ++ ",".intercalate values ++ "]"

/-- An object of written values, in the given order. -/
def writeObject (members : List (String × String)) : String :=
  let written := members.map fun (key, value) => writeText key ++ ":" ++ value
  "\x7b" ++ ",".intercalate written ++ "\x7d"

end Story.Json
