/-!
# Hosts

A project is compiled on a *host*: something that reads and writes files and runs tools. What a host
does is said by a `Host` record, for any monad, so the same compiler runs on the disk, on files in
memory and in proofs about which writes may fail.
-/

namespace Story

/-- Why a host refuses. -/
inductive HostError where
  | notFound | denied | alreadyExists | notDirectory | isDirectory | notExecutable | notText
  | unsupported | nameTooLong
  /-- The name of a file has a zero byte. -/
  | zeroInName
  /-- What a tool is started with has a zero byte. -/
  | zeroInArguments
  /-- Any other reason. -/
  | other (reason : String)
deriving DecidableEq

/-- The reason in words. -/
def HostError.message : HostError → String
  | notFound => "No such file or directory (os error 2)"
  | notExecutable => "Exec format error (os error 8)"
  | denied => "Permission denied (os error 13)"
  | alreadyExists => "File exists (os error 17)"
  | notDirectory => "Not a directory (os error 20)"
  | isDirectory => "Is a directory (os error 21)"
  | nameTooLong => "File name too long (os error 36)"
  | unsupported => "Function not implemented (os error 38)"
  | zeroInName => "file name contained an unexpected NUL byte"
  | zeroInArguments => "nul byte found in provided data"
  | notText => "stream did not contain valid UTF-8"
  | other reason => reason

/-- How a tool ended. -/
inductive ExitStatus where
  /-- By itself, with a number. -/
  | code (number : Nat)
  /-- By a signal. -/
  | signal (number : Nat)
deriving DecidableEq

/-- The signals that have a name. -/
def signalNames : List (Nat × String) :=
  [(1, "HUP"), (2, "INT"), (3, "QUIT"), (4, "ILL"), (5, "TRAP"), (6, "ABRT"), (7, "BUS"),
   (8, "FPE"), (9, "KILL"), (10, "USR1"), (11, "SEGV"), (12, "USR2"), (13, "PIPE"), (14, "ALRM"),
   (15, "TERM"), (16, "STKFLT"), (17, "CHLD"), (18, "CONT"), (19, "STOP"), (20, "TSTP"),
   (21, "TTIN"), (22, "TTOU"), (23, "URG"), (24, "XCPU"), (25, "XFSZ"), (26, "VTALRM"),
   (27, "PROF"), (28, "WINCH"), (29, "IO"), (30, "PWR"), (31, "SYS")]

/-- The status in words. -/
def ExitStatus.text : ExitStatus → String
  | code number => "exit status: " ++ toString number
  | signal number =>
    "signal: " ++ toString number ++
      match signalNames.lookup number with
      | some name => " (SIG" ++ name ++ ")"
      | none => ""

/-- Whether the tool was successful. -/
def ExitStatus.isSuccess (s : ExitStatus) : Bool := s == .code 0

/-- What a tool left behind. -/
structure ToolResult where
  /-- What it printed. -/
  output : List UInt8
  /-- What it printed about errors. -/
  errors : List UInt8
  /-- How it ended. -/
  status : ExitStatus
deriving DecidableEq

/-- What a compiler needs of the world around it. -/
structure Host (m : Type → Type) where
  /-- The text of a file. -/
  readText : String → m (Except HostError String)
  /-- Write a file, with the directories that lead to it. -/
  writeText : String → String → m (Except HostError Unit)
  /-- All files below a directory, as the names on the way to them; directories that are to be
  skipped are told by their names. On failure, the directory that could not be read. -/
  filesUnder : (String → Bool) → String → m (Except (String × HostError) (List (List String)))
  /-- Run a tool with arguments. -/
  runTool : String → List String → m (Except HostError ToolResult)

end Story
