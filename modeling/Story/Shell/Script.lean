/-!
# Shell scripts

Tools of a project in memory are shell scripts. A script is first taken apart into tokens by
`tokens`, and then read into a `Node`, line by line.

A fault in a script only matters once everything before its line has run. So a fault is a token like
any other, and `readLine` reports it when it gets there.
-/

namespace Story.Shell

/-! ### Words -/

/-- A part of a word. -/
inductive Fragment where
  /-- A character as it stands. -/
  | plain (c : Char)
  /-- Characters between quotes, possibly none. -/
  | quoted (text : List Char)
  /-- The value of a parameter. It is split at blanks unless it stands in quotes. -/
  | parameter (name : String) (isQuoted : Bool)
deriving DecidableEq

/-- A word of a command. -/
abbrev Word := List Fragment

/-- Whether a character ends a word. -/
def endsWord (c : Char) : Bool := " \t\n;&|<>()".toList.contains c

/-- Whether a name of a parameter may start with the character. -/
def startsName (c : Char) : Bool := c.isAlpha || c = '_'

/-- Whether a name of a parameter may go on with the character. -/
def continuesName (c : Char) : Bool := c.isAlphanum || c = '_'

/-- Whether a text can be the name of a parameter. -/
def isName (text : String) : Bool :=
  text.toList.head?.any startsName && text.toList.all continuesName

/-- The text of a word that has nothing but characters as they stand. -/
def plainText? : Word → Option String
  | [] => some ""
  | .plain c :: rest => (plainText? rest).map fun text => String.ofList [c] ++ text
  | _ => none

/-- The name and the value that a word assigns, if it is an assignment. -/
def assignment? (w : Word) : Option (String × Word) :=
  let front := w.takeWhile fun
    | .plain c => continuesName c
    | _ => false
  match plainText? front, w.drop front.length with
  | some name, .plain '=' :: value => if isName name then some (name, value) else none
  | _, _ => none

/-- The name of the parameter after a dollar sign, and what remains; none if it is just a dollar
sign. -/
def parameterName : List Char → Option (String × List Char)
  | '\x7b' :: cs =>
    let name := cs.takeWhile fun c => c ≠ '\x7d'
    some (String.ofList name, cs.drop (name.length + 1))
  | c :: cs =>
    if startsName c then
      let name := c :: cs.takeWhile continuesName
      some (String.ofList name, cs.drop (name.length - 1))
    else if c.isDigit || "@*#?$!-".toList.contains c then some (String.ofList [c], cs)
    else none
  | [] => none

/-- The inside of double quotes, up to the closing one; none if there is no closing one. -/
def doubleQuoted : Nat → List Char → Option (Word × List Char)
  | 0, _ => none
  | fuel + 1, cs => do
    match cs with
    | [] => none
    | '"' :: cs => return ([], cs)
    | '\\' :: '\n' :: cs => doubleQuoted fuel cs
    | '\\' :: c :: cs =>
      let (rest, after) ← doubleQuoted fuel cs
      -- Before any other character the backslash stays.
      return (.quoted (if "$\x60\"\\".toList.contains c then [c] else ['\\', c]) :: rest, after)
    | '$' :: cs =>
      match parameterName cs with
      | some (name, cs) =>
        let (rest, after) ← doubleQuoted fuel cs
        return (.parameter name true :: rest, after)
      | none =>
        let (rest, after) ← doubleQuoted fuel cs
        return (.quoted ['$'] :: rest, after)
    | c :: cs =>
      let (rest, after) ← doubleQuoted fuel cs
      return (.quoted [c] :: rest, after)

/-- A word, and what remains; none if a quote is not closed. -/
def word : Nat → List Char → Option (Word × List Char)
  | 0, cs => some ([], cs)
  | fuel + 1, cs => do
    match cs with
    | [] => return ([], [])
    | '\x27' :: cs =>
      let inside := cs.takeWhile fun c => c ≠ '\x27'
      match cs.drop inside.length with
      | [] => none
      | _ :: cs =>
        let (rest, after) ← word fuel cs
        return (.quoted inside :: rest, after)
    | '"' :: cs =>
      let (inside, cs) ← doubleQuoted (cs.length + 1) cs
      let (rest, after) ← word fuel cs
      -- Quotes with nothing in them still make a word.
      return (.quoted [] :: inside ++ rest, after)
    | '\\' :: '\n' :: cs => word fuel cs
    | '\\' :: c :: cs =>
      let (rest, after) ← word fuel cs
      return (.quoted [c] :: rest, after)
    | '$' :: cs =>
      match parameterName cs with
      | some (name, cs) =>
        let (rest, after) ← word fuel cs
        return (.parameter name false :: rest, after)
      | none =>
        let (rest, after) ← word fuel cs
        return (.plain '$' :: rest, after)
    | c :: cs =>
      if endsWord c then return ([], c :: cs)
      let (rest, after) ← word fuel cs
      return (.plain c :: rest, after)

/-! ### Tokens -/

/-- How a redirection leads to a file or a stream. -/
inductive Arrow where
  /-- A file is read. -/
  | input
  /-- A file is written from its start. -/
  | output
  /-- A file is written from its end. -/
  | append
  /-- A stream leads to where another one leads. -/
  | copy
deriving DecidableEq

/-- A token of a script. -/
inductive Token where
  /-- The end of a line. -/
  | newline
  /-- An operator. -/
  | sign (text : String)
  /-- An arrow that redirects a stream. -/
  | arrow (stream : Nat) (arrow : Arrow)
  /-- A word. -/
  | word (word : Word)
  /-- A quote that is not closed. -/
  | openQuote
deriving DecidableEq

/-- Tokens with the lines that they end on, counted from one. -/
abbrev Tokens := List (Nat × Token)

/-- The signs of operators, the longer ones first. -/
def signs : List String := ["&&", "||", ";;", "&", "|", ";", "(", ")"]

/-- The arrow at the start of a text, the stream that it redirects, and what remains. -/
def arrowAt? : List Char → Option (Nat × Arrow × List Char)
  | '<' :: '&' :: cs => some (0, .copy, cs)
  | '<' :: cs => some (0, .input, cs)
  | '>' :: '>' :: cs => some (1, .append, cs)
  | '>' :: '&' :: cs => some (1, .copy, cs)
  | '>' :: '|' :: cs => some (1, .output, cs)
  | '>' :: cs => some (1, .output, cs)
  | c :: cs =>
    if c.isDigit then
      match cs with
      | '<' :: '&' :: cs => some (c.toNat - 48, .copy, cs)
      | '<' :: cs => some (c.toNat - 48, .input, cs)
      | '>' :: '>' :: cs => some (c.toNat - 48, .append, cs)
      | '>' :: '&' :: cs => some (c.toNat - 48, .copy, cs)
      | '>' :: '|' :: cs => some (c.toNat - 48, .output, cs)
      | '>' :: cs => some (c.toNat - 48, .output, cs)
      | _ => none
    else none
  | [] => none

/-- How many lines end in the text before what remains of it. -/
def linesBefore (cs rest : List Char) : Nat := (cs.take (cs.length - rest.length)).count '\n'

/-- The tokens of a text that starts on a line. -/
def tokensFrom : Nat → Nat → List Char → Tokens
  | 0, _, _ => []
  | fuel + 1, line, cs =>
    match cs with
    | [] => []
    | '\n' :: rest => (line, .newline) :: tokensFrom fuel (line + 1) rest
    | '\\' :: '\n' :: rest => tokensFrom fuel (line + 1) rest
    | '#' :: rest => tokensFrom fuel line (rest.dropWhile fun c => c ≠ '\n')
    | c :: rest =>
      if c = ' ' ∨ c = '\t' then tokensFrom fuel line rest
      else match signs.find? fun s => s.toList.isPrefixOf cs, arrowAt? cs with
        | some sign, _ => (line, .sign sign) :: tokensFrom fuel line (cs.drop sign.length)
        | none, some (stream, arrow, rest) =>
          (line, .arrow stream arrow) :: tokensFrom fuel line rest
        | none, none =>
          match word (cs.length + 1) cs with
          | none => [(line + cs.count '\n', .openQuote)]
          | some (w, rest) =>
            let line := line + linesBefore cs rest
            (line, .word w) :: tokensFrom fuel line rest

/-- The tokens of a script. -/
def tokens (script : String) : Tokens := tokensFrom (script.length + 1) 1 script.toList

/-! ### Commands -/

/-- A redirection of a stream. -/
structure Redirection where
  /-- The stream. -/
  stream : Nat
  /-- How it is redirected. -/
  arrow : Arrow
  /-- Where it leads to. -/
  target : Word
deriving DecidableEq

/-- A command. -/
inductive Node where
  /-- Nothing to do. -/
  | nothing
  /-- Words and redirections, on a line. -/
  | simple (line : Nat) (words : List Word) (redirections : List Redirection)
  /-- A command whose failure counts as success, and the other way round. -/
  | negated (body : Node)
  /-- A command, and another one with what it prints. -/
  | pipe (first second : Node)
  /-- A command and, if it succeeds, another. -/
  | both (first second : Node)
  /-- A command and, if it fails, another. -/
  | either (first second : Node)
  /-- One command after the other. -/
  | seq (first second : Node)
  /-- A command that is not waited for. -/
  | background (body : Node)
  /-- A command on a condition, or else another. -/
  | ifElse (condition yes no : Node)
  /-- A command as long as a condition holds, or does not hold. -/
  | loop (isUntil : Bool) (condition body : Node)
  /-- A command for each of some words; without words, for each argument. -/
  | forEach (name : String) (words : Option (List Word)) (body : Node)
  /-- A command in a shell of its own. -/
  | subshell (body : Node)
  /-- A command with redirections, on a line. -/
  | redirected (line : Nat) (body : Node) (redirections : List Redirection)

/-- Why a script cannot be read. -/
inductive ScriptError where
  /-- Something does not belong on a line, and perhaps something else does. -/
  | unexpected (line : Nat) (what : String) (instead : Option String)
  /-- A quote is not closed where the script ends. -/
  | openQuote (line : Nat)
  /-- What a loop runs over is not a name. -/
  | loopName (line : Nat)
deriving DecidableEq

/-- The error as the shell prints it, after the name of the script. -/
def ScriptError.message : ScriptError → String
  | unexpected line what none => toString line ++ ": Syntax error: " ++ what ++ " unexpected"
  | unexpected line what (some instead) =>
    toString line ++ ": Syntax error: " ++ what ++ " unexpected (expecting \"" ++ instead ++ "\")"
  | openQuote line => toString line ++ ": Syntax error: Unterminated quoted string"
  | loopName line => toString line ++ ": Syntax error: Bad for loop variable"

/-- The words with a meaning of their own. -/
def keywords : List String :=
  ["!", "case", "do", "done", "elif", "else", "esac", "fi", "for", "if", "in", "then", "until",
   "while", "\x7b", "\x7d"]

/-- The keyword that a token is. -/
def Token.keyword? : Token → Option String
  | word w => (plainText? w).filter keywords.contains
  | _ => none

/-- Whether a token ends a list of commands inside a command. -/
def Token.endsList (t : Token) : Bool :=
  t == .sign ")" || t == .sign ";;" ||
    t.keyword?.any ["do", "done", "elif", "else", "esac", "fi", "then", "\x7d"].contains

/-- How errors call a token. Words are called keywords only where they can be some. -/
def Token.name (knowsKeywords : Bool) : Token → String
  | newline => "newline"
  | sign text => "\"" ++ text ++ "\""
  | arrow .. => "redirection"
  | word w =>
    match Token.keyword? (.word w) with
    | some text => if knowsKeywords then "\"" ++ text ++ "\"" else "word"
    | none => "word"
  | openQuote => "word"

/-- The error at the first token, or at the end of the script. The end of a line is noticed on the
line after it. -/
def unexpected {α : Type} (lastLine : Nat) (instead : Option String) (knowsKeywords : Bool) :
    Tokens → Except ScriptError α
  | [] => throw (.unexpected lastLine "end of file" instead)
  | (line, .openQuote) :: _ => throw (.openQuote line)
  | (line, .newline) :: _ => throw (.unexpected (line + 1) "newline" instead)
  | (line, t) :: _ => throw (.unexpected line (t.name knowsKeywords) instead)

/-- Without ends of lines at the start. -/
def pastLines : Tokens → Tokens := List.dropWhile fun t => t.2 == .newline

/-- Whether the first token is this one. -/
def startsWith (t : Token) (ts : Tokens) : Bool := ts.head?.any fun found => found.2 == t

/-- The keyword that the first token is. -/
def keywordAt? (ts : Tokens) : Option String := ts.head?.bind fun t => t.2.keyword?

/-- The same tokens, but the first one is no keyword even if it reads like one. -/
def withoutKeyword : Tokens → Tokens
  | (line, .word w) :: rest => (line, .word (.quoted [] :: w)) :: rest
  | ts => ts

/-- The line that the first token ends on. -/
def lineAt (lastLine : Nat) (ts : Tokens) : Nat := (ts.head?.map Prod.fst).getD lastLine

/-- What remains after a keyword or a sign, past ends of lines. -/
def expect (lastLine : Nat) (text : String) (ts : Tokens) : Except ScriptError Tokens :=
  let ts := pastLines ts
  if startsWith (.sign text) ts || keywordAt? ts == some text then return ts.tail
  else unexpected lastLine (some text) true ts

/-- Redirections one after the other. -/
def redirections (lastLine : Nat) :
    Nat → Tokens → Except ScriptError (List Redirection × Tokens)
  | 0, ts => return ([], ts)
  | fuel + 1, ts =>
    match ts with
    | (_, .arrow stream arrow) :: (_, .word target) :: rest => do
      let (more, rest) ← redirections lastLine fuel rest
      return (⟨stream, arrow, target⟩ :: more, rest)
    | (_, .arrow ..) :: rest => unexpected lastLine none false rest
    | ts => return ([], ts)

/-- The words and redirections of a command up to what ends it. -/
def simpleParts (lastLine : Nat) :
    Nat → Tokens → Except ScriptError (List Word × List Redirection × Tokens)
  | 0, ts => return ([], [], ts)
  | fuel + 1, ts =>
    match ts with
    | (_, .word w) :: rest => do
      let (words, found, rest) ← simpleParts lastLine fuel rest
      return (w :: words, found, rest)
    | (_, .arrow stream arrow) :: (_, .word target) :: rest => do
      let (words, found, rest) ← simpleParts lastLine fuel rest
      return (words, ⟨stream, arrow, target⟩ :: found, rest)
    | (_, .arrow ..) :: rest => unexpected lastLine none false rest
    | (line, .openQuote) :: _ => throw (.openQuote line)
    | ts => return ([], [], ts)

/-- A command of words and redirections. A parenthesis after its only word has to be closed at once.
-/
def simpleCommand (lastLine : Nat) (ts : Tokens) : Except ScriptError (Node × Tokens) := do
  let (words, found, rest) ← simpleParts lastLine ts.length ts
  -- A name with a parenthesis behind it starts a function.
  let isLoneName := match words with
    | [w] => found.isEmpty && (assignment? w).isNone
    | _ => false
  if words.isEmpty && found.isEmpty then unexpected lastLine none true ts
  else if isLoneName && startsWith (.sign "(") rest then
    unexpected lastLine (some ")") false rest.tail
  else return (.simple (lineAt lastLine ts) words found, rest)

/-- Words up to a semicolon or the end of a line. -/
def wordList (lastLine : Nat) : Tokens → Except ScriptError (List Word × Tokens)
  | (_, .word w) :: rest => do
    let (words, rest) ← wordList lastLine rest
    return (w :: words, rest)
  | ts =>
    if startsWith .newline ts || startsWith (.sign ";") ts then return ([], ts.tail)
    else unexpected lastLine none false ts

/-- The name and the words that a loop runs over. -/
def loopHead (lastLine : Nat) (ts : Tokens) :
    Except ScriptError ((String × Option (List Word)) × Tokens) := do
  let name? := match ts with
    | (_, .word w) :: _ => (plainText? w).filter isName
    | _ => none
  match name? with
  | none =>
    if startsWith .openQuote ts then unexpected lastLine none false ts
    else throw (.loopName (lineAt lastLine ts))
  | some name =>
    let rest := pastLines ts.tail
    if keywordAt? rest == some "in" then
      let (words, rest) ← wordList lastLine rest.tail
      return ((name, some words), rest)
    else return ((name, none), if startsWith (.sign ";") rest then rest.tail else rest)

/-- One command after another that may be nothing. -/
def Node.andThen : Node → Node → Node
  | nothing, second => second
  | first, second => seq first second

mutual

/-- Commands one after the other, after those in `before`. Inside a command they may go on in the
next line, and end before a token that ends a list. -/
def commandList (lastLine : Nat) (isInside : Bool) (before : Node) :
    Nat → Tokens → Except ScriptError (Node × Tokens)
  | 0, ts => return (before, ts)
  | fuel + 1, ts => do
    let (first, rest) ← andOr lastLine fuel (if isInside then pastLines ts else ts)
    let isBackground := startsWith (.sign "&") rest
    let all := before.andThen (if isBackground then .background first else first)
    if rest.isEmpty then return (all, [])
    else if !isInside && startsWith .newline rest then return (all, rest.tail)
    else if isBackground || startsWith (.sign ";") rest || startsWith .newline rest then
      let after := if isInside then pastLines rest.tail else rest.tail
      if after.isEmpty then return (all, [])
      -- Outside of a command the end of the line is the end of the list.
      else if startsWith .newline after then return (all, after.tail)
      else if isInside && after.head?.any (fun t => t.2.endsList) then return (all, after)
      else commandList lastLine isInside all fuel after
    else if isInside then return (all, rest)
    else unexpected lastLine none true rest

/-- Pipelines joined by `&&` and `||`. -/
def andOr (lastLine : Nat) : Nat → Tokens → Except ScriptError (Node × Tokens)
  | 0, ts => return (.nothing, ts)
  | fuel + 1, ts => do
    let (first, rest) ← pipeline lastLine fuel ts
    furtherAndOr lastLine first fuel rest

/-- Further pipelines after those in `before`. -/
def furtherAndOr (lastLine : Nat) (before : Node) :
    Nat → Tokens → Except ScriptError (Node × Tokens)
  | 0, ts => return (before, ts)
  | fuel + 1, ts => do
    if startsWith (.sign "&&") ts then
      let (next, rest) ← pipeline lastLine fuel (pastLines ts.tail)
      furtherAndOr lastLine (.both before next) fuel rest
    else if startsWith (.sign "||") ts then
      let (next, rest) ← pipeline lastLine fuel (pastLines ts.tail)
      furtherAndOr lastLine (.either before next) fuel rest
    else return (before, ts)

/-- Commands joined by `|`, perhaps negated. -/
def pipeline (lastLine : Nat) : Nat → Tokens → Except ScriptError (Node × Tokens)
  | 0, ts => return (.nothing, ts)
  | fuel + 1, ts => do
    let isNegated := keywordAt? ts == some "!"
    let (first, rest) ← command lastLine fuel (if isNegated then ts.tail else ts)
    let (all, rest) ← furtherPipeline lastLine first fuel rest
    return (if isNegated then .negated all else all, rest)

/-- Further commands of a pipeline after those in `before`. -/
def furtherPipeline (lastLine : Nat) (before : Node) :
    Nat → Tokens → Except ScriptError (Node × Tokens)
  | 0, ts => return (before, ts)
  | fuel + 1, ts => do
    if startsWith (.sign "|") ts then
      let (next, rest) ← command lastLine fuel (pastLines ts.tail)
      furtherPipeline lastLine (.pipe before next) fuel rest
    else return (before, ts)

/-- One command. Redirections may follow a command that is not simple, and no keyword follows them
directly. -/
def command (lastLine : Nat) : Nat → Tokens → Except ScriptError (Node × Tokens)
  | 0, ts => return (.nothing, ts)
  | fuel + 1, ts => do
    let key := keywordAt? ts
    if key.isNone && !startsWith (.sign "(") ts then simpleCommand lastLine ts
    else
      let (body, rest) ← compound lastLine (key.getD "(") fuel ts
      let (found, rest) ← redirections lastLine rest.length rest
      if found.isEmpty then return (body, rest)
      else return (.redirected (lineAt lastLine ts) body found, withoutKeyword rest)

/-- A command that starts with a keyword or a parenthesis. -/
def compound (lastLine : Nat) (key : String) : Nat → Tokens → Except ScriptError (Node × Tokens)
  | 0, ts => return (.nothing, ts)
  | fuel + 1, ts => do
    if key = "if" then conditional lastLine fuel ts.tail
    else if key = "while" || key = "until" then
      let (condition, rest) ← commandList lastLine true .nothing fuel ts.tail
      let (body, rest) ← enclosed lastLine "do" "done" fuel rest
      return (.loop (key = "until") condition body, rest)
    else if key = "for" then
      let ((name, words), rest) ← loopHead lastLine ts.tail
      let (body, rest) ← enclosed lastLine "do" "done" fuel rest
      return (.forEach name words body, rest)
    else if key = "\x7b" then enclosed lastLine "\x7b" "\x7d" fuel ts
    else if key = "(" then
      let (body, rest) ← enclosed lastLine "(" ")" fuel ts
      return (.subshell body, rest)
    else unexpected lastLine none true ts

/-- A conditional after `if` or `elif`. -/
def conditional (lastLine : Nat) : Nat → Tokens → Except ScriptError (Node × Tokens)
  | 0, ts => return (.nothing, ts)
  | fuel + 1, ts => do
    let (condition, rest) ← commandList lastLine true .nothing fuel ts
    let rest ← expect lastLine "then" rest
    let (yes, rest) ← commandList lastLine true .nothing fuel rest
    if keywordAt? (pastLines rest) == some "elif" then
      let (no, rest) ← conditional lastLine fuel (pastLines rest).tail
      return (.ifElse condition yes no, rest)
    else if keywordAt? (pastLines rest) == some "else" then
      let (no, rest) ← enclosed lastLine "else" "fi" fuel rest
      return (.ifElse condition yes no, rest)
    else return (.ifElse condition yes .nothing, ← expect lastLine "fi" rest)

/-- Commands between two words or signs. -/
def enclosed (lastLine : Nat) (first last : String) :
    Nat → Tokens → Except ScriptError (Node × Tokens)
  | 0, ts => return (.nothing, ts)
  | fuel + 1, ts => do
    let rest ← expect lastLine first ts
    let (body, rest) ← commandList lastLine true .nothing fuel rest
    return (body, ← expect lastLine last rest)

end

/-- Read the commands of the next line, and of further lines if they go on there. -/
def readLine (lastLine : Nat) (ts : Tokens) : Except ScriptError (Node × Tokens) :=
  if ts.isEmpty || startsWith .newline ts then return (.nothing, ts.tail)
  else commandList lastLine false .nothing (20 * ts.length + 20) ts

end Story.Shell
