import Story.Host.Tree
import Story.Shell.Printing
import Story.Shell.Script

/-!
# Running shell scripts

A `Session` is a running script: its parameters, its files and what it has printed. `Node.run` runs
a command in a session, and `run` a whole script, line by line. The commands are those that the
shell has built in, so a script reaches nothing but the files of its session.
-/

namespace Story.Shell

/-- Where a stream leads to. -/
inductive Sink where
  | output | errors | nowhere | closed
  /-- The file at a path. -/
  | file (path : String)
deriving DecidableEq

/-- A running script. -/
structure Session where
  /-- The name that the script runs under. -/
  name : String
  /-- Its arguments. -/
  arguments : List String
  /-- The parameters that were assigned. -/
  assigned : List (String × String)
  /-- The status of the last command. -/
  status : Nat
  /-- What was printed. -/
  output : List UInt8
  /-- What was printed about errors. -/
  errors : List UInt8
  /-- Where the streams lead to, as far as they are open. -/
  sinks : List (Nat × Sink)
  /-- How the script ended, if it did. -/
  ended : Option ExitStatus
  /-- The files. -/
  files : FileTree

/-- The number of the running script among all running programs. -/
def ownNumber : Nat := 4711

/-- The parameters that every script starts with. -/
def firstParameters : List (String × String) :=
  [("IFS", " \t\n"), ("OPTIND", "1"), ("PATH", "./bin"), ("PS2", "> "), ("PS4", "+ ")]

namespace Session

/-! ### Words -/

/-- The value of a parameter. -/
def value (s : Session) (name : String) : String :=
  match name.toNat? with
  | some 0 => s.name
  | some n => s.arguments.getD (n - 1) ""
  | none =>
    if name = "@" || name = "*" then " ".intercalate s.arguments
    else if name = "#" then toString s.arguments.length
    else if name = "?" then toString s.status
    else if name = "$" then toString ownNumber
    else (s.assigned.lookup name).getD ""

end Session

/-- Fields that are complete, the last one first, and the field that is being put together. -/
abbrev Fields := List (List Char) × Option (List Char)

/-- Close the field that is being put together. -/
def Fields.close : Fields → Fields
  | (closed, some field) => (field :: closed, none)
  | fields => fields

/-- Go on with characters. -/
def Fields.append (fields : Fields) (text : List Char) : Fields :=
  (fields.1, some (fields.2.getD [] ++ text))

/-- Go on with characters that blanks split. -/
def Fields.split (fields : Fields) (text : List Char) : Fields :=
  text.foldl (fun fields c =>
    if c = ' ' ∨ c = '\t' ∨ c = '\n' then Fields.close fields else Fields.append fields [c]) fields

/-- Go on with several values, each a field of its own. -/
def Fields.several (add : Fields → List Char → Fields) (fields : Fields) : List String → Fields
  | [] => fields
  | [value] => add fields value.toList
  | value :: rest => Fields.several add (Fields.close (add fields value.toList)) rest

/-- Whether a word is nothing but all arguments in quotes, and so no field without arguments. -/
def isAllArguments (w : Word) : Bool :=
  w == [.quoted [], .parameter "@" true]

namespace Session

/-- Go on with a part of a word. -/
def extend (s : Session) (fields : Fields) : Fragment → Fields
  | .plain c => Fields.append fields [c]
  | .quoted text => Fields.append fields text
  | .parameter "@" true => Fields.several Fields.append fields s.arguments
  | .parameter name true => Fields.append fields (s.value name).toList
  | .parameter name false =>
    if name = "@" || name = "*" then Fields.several Fields.split fields s.arguments
    else Fields.split fields (s.value name).toList

/-- The fields that a word becomes. -/
def fields (s : Session) (w : Word) : List String :=
  if isAllArguments w && s.arguments.isEmpty then []
  else ((w.foldl s.extend ([], none)).close.1.reverse).map String.ofList

/-- The text of a word that is not split. -/
def text (s : Session) (w : Word) : String :=
  String.join (w.map fun
    | .plain c => String.ofList [c]
    | .quoted text => String.ofList text
    | .parameter name _ => s.value name)

/-! ### Printing and redirections -/

/-- Where a stream leads to. -/
def sink (s : Session) (stream : Nat) : Sink := (s.sinks.lookup stream).getD .closed

/-- Print bytes to a stream. -/
def print (s : Session) (bytes : List UInt8) (stream : Nat) : Session :=
  match s.sink stream with
  | .output => { s with output := s.output ++ bytes }
  | .errors => { s with errors := s.errors ++ bytes }
  | .nowhere | .closed => s
  | .file path =>
    -- A stream to a file goes on where the file ends.
    let before := (s.files.readBytes path).toOption.getD []
    match s.files.writeBytes path (before ++ bytes) with
    | .ok files => { s with files }
    | .error _ => s

/-- The shell itself complains. -/
def complain (s : Session) (line : Nat) (text : String) (status : Nat) : Session :=
  { s.print (Utf8.encode (s.name ++ ": " ++ toString line ++ ": " ++ text ++ "\n")) 2 with status }

/-- Complain, and end the script. -/
def fail (s : Session) (line : Nat) (text : String) : Session :=
  { s.complain line text 2 with ended := some (.code 2) }

/-- Lead a stream to a sink. -/
def lead (s : Session) (stream : Nat) (sink : Sink) : Session :=
  { s with sinks := (stream, sink) :: s.sinks }

/-- Why a file cannot be opened, in the shell's words. -/
def openFault (isMissing : String) : HostError → String
  | .notFound | .notDirectory => isMissing
  | .isDirectory => "Is a directory"
  | .denied => "Permission denied"
  | e => e.message

/-- Open the file at a path, and lead a stream there. -/
def openFile (s : Session) (stream : Nat) (arrow : Arrow) (path : String) :
    Except String Session :=
  if path = "/dev/null" then return s.lead stream .nowhere
  else if arrow = .input then
    match s.files.locate path with
    -- What a file holds is never read, since no command reads.
    | .ok (.found ..) => return s.lead stream .nowhere
    | .ok (.free _) | .error _ => throw ("cannot open " ++ path ++ ": No such file")
  else
    let before := if arrow = .append then (s.files.readBytes path).toOption.getD [] else []
    match s.files.writeBytes path before with
    | .ok files => return { s with files }.lead stream (.file path)
    | .error e => throw ("cannot create " ++ path ++ ": " ++ openFault "Directory nonexistent" e)

/-- Carry out one redirection. -/
def redirect (s : Session) (r : Redirection) : Except String Session :=
  let target := s.text r.target
  if r.arrow = .copy then
    if target = "-" then return s.lead r.stream .closed
    else match target.toList.all Char.isDigit, target.toNat? with
      | true, some n =>
        if s.sink n = .closed then throw (target ++ ": Bad file descriptor")
        else return s.lead r.stream (s.sink n)
      | _, _ => throw "Syntax error: Bad fd number"
  else s.openFile r.stream r.arrow target

/-- Carry out redirections, one after the other. The first that fails is complained about, and the
flag tells whether all succeeded. -/
def redirectAll (s : Session) (line : Nat) : List Redirection → Session × Bool
  | [] => (s, true)
  | r :: rs =>
    match s.redirect r with
    | .ok s => s.redirectAll line rs
    | .error text => (s.complain line text 2, false)

/-! ### Commands that are built in -/

/-- A number that a command takes. -/
def number? (text : String) : Option Nat :=
  if text.toList.all Char.isDigit then text.toNat?.filter fun n => n < Nat.pow 2 31 else none

/-- The signal that an option of `kill` names, by its number or its name. -/
def signal? (text : String) : Option Nat :=
  if !text.isEmpty && text.toList.all Char.isDigit then text.toNat?.filter fun n => n < 65
  else
    (signalNames.find? fun (_, name) => name.toList = text.toList.map Char.toUpper).map Prod.fst

/-- The signals that end no program: zero is none, and the others are ignored. -/
def harmlessSignals : List Nat := [0, 17, 18, 23, 28]

/-- Send a signal to programs. -/
def send (s : Session) (line signal : Nat) : List String → Session
  | [] => s
  | target :: rest =>
    match number? target with
    | none => s.complain line ("kill: Illegal number: " ++ target) 2
    | some n =>
      -- There is no other program, and the ones after it are tried all the same.
      if n ≠ ownNumber then (s.complain line "kill: No such process\n" 1).send line signal rest
      else if harmlessSignals.contains signal then s.send line signal rest
      else { s with ended := some (.signal signal) }

/-- The command `kill`. -/
def kill (s : Session) (line : Nat) (arguments : List String) : Session :=
  let usage := s.complain line ("kill: Usage: kill [-s sigspec | -signum | -sigspec] " ++
    "[pid | job]... or\nkill -l [exitstatus]") 2
  let start (signal : Nat) (targets : List String) : Session :=
    if targets.isEmpty then usage else { s with status := 0 }.send line signal targets
  match arguments with
  | [] => usage
  | option :: rest =>
    match option.toList with
    | '-' :: name =>
      match signal? (String.ofList name) with
      | some signal => start signal rest
      | none =>
        if option = "--" then start 15 rest
        else if option = "-s" then
          match rest with
          | [] => s.complain line "kill: No arg for -s option" 2
          | name :: rest =>
            match signal? name with
            | some signal => start signal rest
            | none => s.complain line ("kill: invalid signal number or name: " ++ name) 2
        else s.complain line ("kill: Illegal option -" ++ String.ofList (name.take 1)) 2
    | _ => start 15 (option :: rest)

/-- Whether an expression of `test` holds; none if it is no expression. -/
def test (s : Session) : List String → Option Bool
  | [] => some false
  | [text] => some (!text.isEmpty)
  | ["!", text] => some text.isEmpty
  | ["-n", text] => some (!text.isEmpty)
  | ["-z", text] => some text.isEmpty
  | ["-e", path] => some ((s.files.locate path).toOption.any fun
      | .found .. => true
      | .free _ => false)
  | ["-d", path] => some (s.files.isDirectory path)
  | ["-f", path] => some (s.files.readBytes path).toOption.isSome
  | [a, "=", b] => some (a = b)
  | [a, "!=", b] => some (a ≠ b)
  | [a, operator, b] => do
    let m ← a.toInt?
    let n ← b.toInt?
    [("-eq", decide (m = n)), ("-ne", decide (m ≠ n)), ("-lt", decide (m < n)),
     ("-le", decide (m ≤ n)), ("-gt", decide (m > n)), ("-ge", decide (m ≥ n))].lookup operator
  | _ => none

/-- Run a command that the shell has built in. -/
def builtin (s : Session) (line : Nat) (name : String) (arguments : List String) : Session :=
  let done := { s with status := 0 }
  match name, arguments with
  | ":", _ | "true", _ | "ulimit", _ => done
  | "false", _ => { s with status := 1 }
  | "echo", _ => done.print (echo arguments) 1
  | "printf", [] => s.complain line "printf: usage: printf format [arg ...]" 2
  | "printf", format :: rest =>
    let printed := printf format rest
    let complained := printed.complaints.foldl
      (fun s text => s.complain line ("printf: " ++ text) printed.status) done
    complained.print printed.bytes 1
  | "exit", [] | "return", [] => { s with ended := some (.code s.status) }
  | "exit", text :: _ | "return", text :: _ =>
    match number? text with
    | some n => { s with ended := some (.code (n % 256)) }
    | none => s.fail line (name ++ ": Illegal number: " ++ text)
  | "kill", _ => s.kill line arguments
  | "shift", _ =>
    let text := arguments.headD "1"
    match number? text with
    | none => s.fail line ("shift: Illegal number: " ++ text)
    | some n =>
      if s.arguments.length < n then s.fail line "shift: can't shift that many"
      else { done with arguments := s.arguments.drop n }
  | "set", "--" :: rest => { done with arguments := rest }
  | "set", _ => done
  | "test", _ => { s with status := if s.test arguments = some true then 0 else 1 }
  | "[", _ =>
    if arguments.getLast? = some "]" then
      { s with status := if s.test arguments.dropLast = some true then 0 else 1 }
    else s.complain line "[: missing ]" 2
  | "exec", [] => done
  | "exec", tool :: _ =>
    { s.complain line ("exec: " ++ tool ++ ": not found") 127 with ended := some (.code 127) }
  | _, _ => s.complain line (name ++ ": not found") 127

/-- The commands whose redirections must not fail. -/
def specialCommands : List String := [":", "exec", "exit", "return", "set", "shift"]

/-! ### Commands -/

/-- Assignments before a command, and the words after them. -/
def takeAssignments (s : Session) : List Word → Session × List Word
  | [] => (s, [])
  | w :: ws =>
    match assignment? w with
    | some (name, value) =>
      { s with assigned := (name, s.text value) :: s.assigned }.takeAssignments ws
    | none => (s, w :: ws)

/-- Go on with the streams and parameters of another session. -/
def leaving (s before : Session) : Session :=
  { s with sinks := before.sinks, assigned := before.assigned }

/-- Run a simple command. Its redirections hold only for it, unless it is `exec`; assignments
before a command only for that command. -/
def simple (s : Session) (line : Nat) (words : List Word) (rs : List Redirection) : Session :=
  let (assigned, rest) := s.takeAssignments words
  let fields := rest.flatMap s.fields
  match s.redirectAll line rs with
  | (redirected, false) =>
    -- A special command takes the script with it.
    let isOver := fields.head?.any specialCommands.contains
    { redirected.leaving s with ended := if isOver then some (.code 2) else none }
  | (redirected, true) =>
    match fields with
    -- Without a command the assignments stay.
    | [] => { redirected.leaving s with assigned := assigned.assigned, status := 0 }
    | ["exec"] => { redirected with status := 0 }
    | name :: arguments =>
      ({ redirected with assigned := assigned.assigned }.builtin line name arguments).leaving s

/-- What a shell of its own leaves to this one. -/
def after (s inner : Session) : Session :=
  let kept := { s with output := inner.output, errors := inner.errors, files := inner.files }
  match inner.ended with
  | none => { kept with status := inner.status }
  | some (.code n) => { kept with status := n }
  -- A signal that ends the inner shell is meant for the whole script.
  | some (.signal n) => { kept with ended := some (.signal n) }

end Session

/-- Run a command in a session. -/
def Node.run : Nat → Node → Session → Session
  | 0, _, s => s
  | fuel + 1, node, s =>
    if s.ended.isSome then s
    else match node with
      | .nothing => s
      | .simple line words rs => s.simple line words rs
      | .negated body =>
        let t := body.run fuel s
        { t with status := if t.status = 0 then 1 else 0 }
      | .pipe first second =>
        -- Both sides run in a shell of their own, and nothing is passed between them.
        let t := s.after (first.run fuel (s.lead 1 .nowhere))
        t.after (second.run fuel { t with status := s.status })
      | .both first second =>
        let t := first.run fuel s
        if t.status = 0 then second.run fuel t else t
      | .either first second =>
        let t := first.run fuel s
        if t.status = 0 then t else second.run fuel t
      | .seq first second => second.run fuel (first.run fuel s)
      | .background body => { s.after (body.run fuel s) with status := 0 }
      | .ifElse condition yes no =>
        let t := condition.run fuel s
        if t.status = 0 then yes.run fuel t else no.run fuel { t with status := 0 }
      | .loop isUntil condition body =>
        let t := condition.run fuel s
        -- A script that ended in the condition runs no body.
        if (t.status = 0) = !isUntil && t.ended.isNone then
          (Node.loop isUntil condition body).run fuel (body.run fuel t)
        else { t with status := 0 }
      | .forEach name words body =>
        let values := match words with
          | some words => words.flatMap s.fields
          | none => s.arguments
        values.foldl (fun t value =>
          body.run fuel { t with assigned := (name, value) :: t.assigned }) { s with status := 0 }
      | .subshell body => s.after (body.run fuel s)
      | .redirected line body rs =>
        let (t, succeeded) := s.redirectAll line rs
        { if succeeded then body.run fuel t else t with sinks := s.sinks }

/-- The most that a script may run: nested commands, and rounds of a loop. -/
def longestRun : Nat := 100000

/-- Run the lines of a script one after the other, until it ends or cannot be read further. -/
def runLines (lastLine : Nat) : Nat → Tokens → Session → Session
  | 0, _, s => s
  | fuel + 1, ts, s =>
    if ts.isEmpty || s.ended.isSome then s
    else match readLine lastLine ts with
      | .ok (node, rest) => runLines lastLine fuel rest (node.run longestRun s)
      | .error e =>
        let text := Utf8.encode (s.name ++ ": " ++ e.message ++ "\n")
        { s.print text 2 with ended := some (.code 2) }

/-- Run a script under a name, with arguments, over files. -/
def run (name script : String) (arguments : List String) (files : FileTree) :
    ToolResult × FileTree :=
  let streams : List (Nat × Sink) := [(0, .nowhere), (1, .output), (2, .errors)]
  let fresh : Session := ⟨name, arguments, firstParameters, 0, [], [], streams, none, files⟩
  let found := tokens script
  let lastLine := 1 + script.toList.count '\n'
  let final := runLines lastLine (found.length + 1) found fresh
  (⟨final.output, final.errors, final.ended.getD (.code final.status)⟩, final.files)

end Story.Shell
