import Story.Diagnostic
import Story.Settings.Basic

/-!
# Failures

What can go wrong around the compiling of stories: settings, files, tools. A `Failure` has a text of
its own and a diagnostic by which it is reported.
-/

namespace Story

/-- What can go wrong around the compiling of stories. -/
inductive Failure where
  /-- The settings make no sense. -/
  | settings (error : SettingsError)
  /-- A file or directory cannot be read. -/
  | unreadable (path reason : String)
  /-- A file cannot be written. -/
  | unwritable (path reason : String)
  /-- A tool cannot be run. -/
  | toolMissing (tool reason : String)
  /-- The compiler itself failed. -/
  | unexpected (reason : String)
deriving DecidableEq

namespace Failure

/-- The reason when the compiler failed and did not say why. -/
def unknownReason : String := "unknown panic"

/-- The failure in words. -/
def message : Failure → String
  | settings error => error.message
  | unreadable path reason => "cannot read " ++ path ++ ": " ++ reason
  | unwritable path reason => "cannot write " ++ path ++ ": " ++ reason
  | toolMissing tool reason => "cannot run " ++ tool ++ ": " ++ reason
  | unexpected reason => "unexpected failure: " ++ reason

/-- The diagnostic that reports the failure. -/
def diagnostic : Failure → Diagnostic
  | settings error => .placeless .invalidSettings [error.message]
  | unreadable path reason => .placeless .cannotRead [path, reason]
  | unwritable path reason => .placeless .cannotWrite [path, reason]
  | toolMissing tool reason => .placeless .toolFailed [tool, reason]
  | unexpected reason => .placeless .unexpectedFailure [reason]

end Failure

end Story
