/-
The program: it reads its arguments, runs the lint command and ends with a status. A usage problem
ends with 64, a failure or a crash with 1, an error among the issues with 2, all else with 0.
-/
import LintEngine.Command.Lint

namespace LintEngine

inductive Printed
  | output (text : String)
  | error (text : String)
  /-- The trace of a fault, on the standard error. -/
  | trace (fault : Fault)
deriving Inhabited

/-- How the program ends: its status, what it has written, and the file tree. -/
structure ProgramRun where
  status : Nat
  printed : List Printed
  files : FileTree

namespace ProgramRun

/-- The status for a command line that is not understood. -/
def usageStatus : Nat := 64

/-- The status for a failure or a crash. -/
def failureStatus : Nat := 1

/-- What is written of a failure: one line for a foreseen one, the trace of an error that has one,
and the bare text of anything else. -/
def printFailure : Failure → Printed
  | .app e => .error ("Error: " ++ e.describe)
  | .fault (.text s) => .error s
  | .fault (.raised "" false) => .error "Error"
  | .fault (.raised message false) => .error ("Error: " ++ message)
  | .fault fault => .trace fault
  | .value v => .error (v.text?.getD "")

def printLine (debug : Bool) : LogLine → List Printed
  | .message text => [.output text]
  | .debug text => if debug then [.error ("[craft-lint] " ++ text)] else []

end ProgramRun

open ProgramRun in
def LintSetup.run (s : LintSetup) (debug : Bool) (files : FileTree) (args : List String) :
    ProgramRun :=
  match LintOptions.parse args with
  | .error e =>
    { status := usageStatus, printed := [.error e.describe, .error LintOptions.usage], files }
  | .ok options =>
    if options.help then { status := 0, printed := [.output LintOptions.usage], files }
    else
      let run := s.lint {} files options
      let printed := run.log.flatMap (printLine debug)
      match run.result with
      | .ok status => { status, printed, files := run.files }
      | .error e =>
        { status := failureStatus, printed := printed ++ [printFailure e], files := run.files }

end LintEngine
