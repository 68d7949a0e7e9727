/-!
# Literals of the generated script

How words of a story become literals of the generated script.

* `escapeText` prepares the words of a text line for a template literal: nothing in them is special,
  so a backslash, a back-tick and a dollar sign before a brace are all escaped;
* `escapeString` prepares the inside of a quoted string for a template literal: escape sequences
  that the author wrote stay as they are;
* `quoteName` writes a name between single quotes.

All three work character by character, on lists of characters.
-/

namespace Story

/-- The characters of a text line inside a template literal. -/
def escapeTextChars : List Char → List Char
  | [] => []
  | c :: cs =>
    if c = '\\' then '\\' :: '\\' :: escapeTextChars cs
    else if c = '\x60' then '\\' :: '\x60' :: escapeTextChars cs
    else if c = '$' ∧ cs.head? = some '\x7b' then '\\' :: '$' :: escapeTextChars cs
    else c :: escapeTextChars cs

/-- Words of a text line inside a template literal. -/
def escapeText (text : String) : String := String.ofList (escapeTextChars text.toList)

/-- The characters of a quoted string inside a template literal. A backslash keeps the character
after it; at the very end it is doubled, since it would otherwise escape the closing back-tick. -/
def escapeStringChars : List Char → List Char
  | [] => []
  | ['\\'] => ['\\', '\\']
  | '\\' :: c :: cs => '\\' :: c :: escapeStringChars cs
  | c :: cs =>
    if c = '\x60' then '\\' :: '\x60' :: escapeStringChars cs
    else if c = '$' ∧ cs.head? = some '\x7b' then '\\' :: '$' :: escapeStringChars cs
    else c :: escapeStringChars cs

/-- The inside of a quoted string inside a template literal. -/
def escapeString (text : String) : String := String.ofList (escapeStringChars text.toList)

/-- One character between single quotes. -/
def quoteChar (c : Char) : List Char :=
  if c = '\\' then ['\\', '\\']
  else if c = '\x27' then ['\\', '\x27']
  else if c = '\n' then ['\\', 'n']
  else if c = '\r' then ['\\', 'r']
  else [c]

/-- A name between single quotes. -/
def quoteName (text : String) : String :=
  "'" ++ String.ofList (text.toList.flatMap quoteChar) ++ "'"

end Story
