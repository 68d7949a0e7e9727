import Story.Host.Basic
import Story.Project.Failure
import Story.Text.Blank
import Story.Text.Utf8

/-!
# Other tools

A tool may run after the compiler. Whatever it prints becomes diagnostics in its name, a line each,
and so does the way it ended if that was no success.
-/

namespace Story

/-- The stretches between line feeds. -/
def splitLines : List Char → List (List Char)
  | [] => [[]]
  | c :: cs =>
    if c = '\n' then [] :: splitLines cs
    else match splitLines cs with
      | [] => [[c]]
      | l :: ls => (c :: l) :: ls

/-- The lines of what a tool printed that are not blank, without the white space at their ends. -/
def printedLines (bytes : List UInt8) : List String :=
  ((splitLines (Utf8.decode bytes).toList).map fun l => trimEnd (String.ofList l)).filter
    fun l => !l.isEmpty

/-- What there is to report about a tool that ran. -/
def ToolResult.diagnostics (tool : String) (r : ToolResult) : List Diagnostic :=
  let lines := (printedLines r.output ++ printedLines r.errors).map fun line =>
    (Diagnostic.placeless .toolOutput [line]).reportedBy tool
  if r.status.isSuccess then lines
  else lines ++ [(Diagnostic.placeless .toolFailed [tool, r.status.text]).reportedBy tool]

/-- Run a tool and report. -/
def toolDiagnostics {m : Type → Type} [Monad m] (host : Host m) (tool : String)
    (arguments : List String) : m (List Diagnostic) := do
  match ← host.runTool tool arguments with
  | .error e => return [(Failure.toolMissing tool e.message).diagnostic]
  | .ok r => return r.diagnostics tool

end Story
