import Story.Project.Compile

/-!
# The command line

The arguments of the command line, and what is printed at the end. An option that takes values takes
them from the arguments after it, or one value from the same argument; an argument that starts with
a dash is never a value. After `--` nothing is an option.

* `Invocation.parse` reads the arguments;
* `Report.lines` is what a report looks like, `Report.exitCode` what it is worth;
* `runCommand` does it all on a host.
-/

namespace Story

/-! ### Arguments -/

/-- The arguments of the command line, as they have been read so far. -/
structure Invocation where
  /-- The file of the settings. -/
  settings : Option String
  /-- The only story to compile. -/
  file : Option String
  /-- What the typed scripts are checked by. -/
  typedSettings : Option String
  /-- Stories to compile and the files of their scripts. -/
  outputs : List (String × String)
  /-- Whether the compiler is to say what it does. -/
  isVerbose : Bool
  /-- Whether diagnostics are to be drawn. -/
  isPretty : Bool
deriving DecidableEq

/-- What the command line asks for. -/
inductive Request where
  /-- The version. -/
  | version
  /-- An explanation of the command line. -/
  | help
  /-- To compile a project. -/
  | compile (options : CompileOptions)
deriving DecidableEq

/-- An option. -/
inductive Flag where
  | file | typedSettings | output | verbose | pretty | help | version
deriving DecidableEq

namespace Flag

/-- The option with a long name. -/
def ofName? : String → Option Flag
  | "file" => some file
  | "ts" => some typedSettings
  | "output" => some output
  | "verbose" => some verbose
  | "pretty" => some pretty
  | "help" => some help
  | "version" => some version
  | _ => none

/-- The option with a letter. -/
def ofLetter? : Char → Option Flag
  | 'f' => some file
  | 'o' => some output
  | 'h' => some help
  | 'V' => some version
  | _ => none

/-- Whether the option takes values. -/
def takesValues : Flag → Bool
  | file | typedSettings | output => true
  | verbose | pretty | help | version => false

end Flag

/-- An argument by itself. -/
inductive Argument where
  /-- A value. -/
  | value (text : String)
  /-- The end of the options. -/
  | endOfOptions
  /-- An option, perhaps with a value in the same argument. -/
  | flag (flag : Flag) (attached : Option String)
  /-- Something that only looks like an option. -/
  | unknown
deriving DecidableEq

/-- The text before the first equals sign, and the text after it. -/
def splitEquals (cs : List Char) : List Char × Option (List Char) :=
  let name := cs.takeWhile fun c => c ≠ '='
  (name, (cs.drop name.length).tail?)

/-- What an argument is. What follows the letter of an option is its value, if it takes one. -/
def Argument.ofText (text : String) : Argument :=
  match text.toList with
  | ['-', '-'] => .endOfOptions
  | '-' :: '-' :: cs =>
    -- The value may be empty: an equals sign is enough.
    let (name, attached) := splitEquals cs
    match Flag.ofName? (String.ofList name) with
    | some f => .flag f (attached.map String.ofList)
    | none => .unknown
  | '-' :: c :: cs =>
    match Flag.ofLetter? c with
    | none => .unknown
    | some f =>
      -- Letters that follow an option without values are passed over.
      if !f.takesValues || cs.isEmpty then .flag f none
      else .flag f (some (String.ofList (if cs.head? = some '=' then cs.tail else cs)))
  | _ => .value text

/-- Whether an argument can be the value of an option. -/
def isValue (text : String) : Bool :=
  match Argument.ofText text with
  | .value _ => true
  | _ => false

namespace Invocation

/-- Nothing has been read. -/
def empty : Invocation := ⟨none, none, none, [], false, false⟩

/-- The settings, which may be given once. -/
def withSettings? (i : Invocation) (text : String) : Option Invocation :=
  if i.settings.isSome then none else some { i with settings := some text }

/-- All remaining arguments are values. -/
def values? (i : Invocation) : List String → Option Invocation
  | [] => some i
  | text :: rest =>
    match i.withSettings? text with
    | some i => i.values? rest
    | none => none

/-- An option with one value. -/
def withValue? (i : Invocation) (value : String) : Flag → Option Invocation
  | .file => if i.file.isSome then none else some { i with file := some value }
  | .typedSettings =>
    if i.typedSettings.isSome then none else some { i with typedSettings := some value }
  | _ => none

/-- An option without values. -/
def withFlag? (i : Invocation) : Flag → Option Invocation
  | .verbose => if i.isVerbose then none else some { i with isVerbose := true }
  | .pretty => if i.isPretty then none else some { i with isPretty := true }
  | _ => none

/-- What the arguments ask for once they have been read: the settings are needed, and a story can be
named in one way only. Several stories with scripts of their own count as none. -/
def request? (i : Invocation) : Option Request :=
  match i.settings with
  | none => none
  | some settings =>
    if i.file.isSome && !i.outputs.isEmpty then none
    else
      let output := match i.outputs with
        | [one] => some one
        | _ => none
      some (.compile ⟨settings, i.file, output, i.typedSettings⟩)

/-- Read the arguments. -/
def parse (i : Invocation) : List String → Option Request
  | [] => i.request?
  | text :: rest =>
    match Argument.ofText text with
    | .unknown => none
    -- Behind the end of options even what starts with a dash is a value.
    | .endOfOptions => (i.values? rest).bind request?
    | .value text =>
      match i.withSettings? text with
      | some i => i.parse rest
      | none => none
    -- Asking for the version or for help settles it, whatever has been read before.
    | .flag .version none => some .version
    | .flag .help none => some .help
    | .flag .output none =>
      match rest with
      -- Two values belong together: the story and the file of its script.
      | source :: target :: rest =>
        if isValue source && isValue target then
          parse { i with outputs := i.outputs ++ [(source, target)] } rest
        else none
      | _ => none
    | .flag .output (some _) => none
    | .flag flag (some value) =>
      match i.withValue? value flag with
      | some i => i.parse rest
      | none => none
    | .flag flag none =>
      match i.withFlag? flag with
      | some i => i.parse rest
      -- It takes a value, which is the next argument.
      | none =>
        match rest with
        | value :: rest =>
          if isValue value then
            match i.withValue? value flag with
            | some i => i.parse rest
            | none => none
          else none
        | [] => none

end Invocation

/-! ### What is printed -/

/-- What stands before the code of a diagnostic: the compiler's mark, or the tool that reports. -/
def Diagnostic.codeMark (d : Diagnostic) : String :=
  match d.source with
  | none => "STS"
  | some tool => if tool = Diagnostic.compilerName then "STS" else tool

/-- Whether a diagnostic is about a place in a text. Those about files and tools are not. -/
def Diagnostic.hasPlace (d : Diagnostic) : Bool :=
  match d.code with
  | none => true
  | some code => code < 5000

/-- A diagnostic about a path, on one line. -/
def Diagnostic.line (path : String) (d : Diagnostic) : String :=
  let place := if d.hasPlace then path ++ "(" ++ d.span.display ++ ")" else path
  let code := d.codeMark ++ (d.code.map toString).getD ""
  place ++ ": " ++ d.severity.name ++ " " ++ code ++ ": " ++ d.message ++ "\n"

/-- All diagnostics of a report, line by line, and how many errors they are. -/
def Report.lines (r : Report) : String :=
  let lines := r.entries.flatMap fun (path, ds) => ds.map fun d => d.line path
  let ending :=
    if r.hasErrors then
      "\nFound " ++ toString r.errorCount ++
        (if r.errorCount = 1 then " error" else " errors") ++ ".\n"
    else ""
  String.join lines ++ ending

/-- What a report is worth: 0 without errors, 1 if the settings are to blame, otherwise 2. -/
def Report.exitCode (r : Report) (settings : String) : Nat :=
  if !r.hasErrors then 0
  else if r.entries.any fun e => e.1 = settings then 1
  else 2

/-- What came of a command. -/
structure Outcome where
  /-- What it is worth. -/
  exitCode : Nat
  /-- Whether the arguments made no sense. -/
  isUsageError : Bool
  /-- What is printed. -/
  output : String
  /-- What is printed about errors. -/
  errors : String
deriving DecidableEq

/-- The name and the version of the compiler. -/
def versionLine : String := Diagnostic.compilerName ++ " 0.1.0\n"

/-- How the command is used. -/
def usage : String :=
  "Usage: " ++ Diagnostic.compilerName ++
    " <CONFIG> [-f <FILE>] [--ts <TSCONFIG>] [-o <SOURCE> <OUT>] [--verbose] [--pretty]\n"

/-- Run a command on a host. -/
def runCommand {m : Type → Type} [Monad m] (host : Host m) (arguments : List String) :
    m Outcome := do
  match Invocation.parse .empty arguments with
  | none => return ⟨2, true, "", usage⟩
  | some .version => return ⟨0, false, versionLine, ""⟩
  | some .help => return ⟨0, false, usage, ""⟩
  | some (.compile options) =>
    let r ← compileProject host options
    return ⟨r.exitCode options.settings, false, "", r.lines⟩

end Story
