/-
Running programs: what a finished program leaves, and the one line that describes a failed one. The
description is what the program wrote to its standard error, else to its standard output, else what
the system says.
-/
import LintEngine.Failure
import LintEngine.Text.Blank

namespace LintEngine.Program

/-- What is left of a program that has ended. -/
structure Ended where
  output : String := ""
  errors : String := ""
  status : Nat := 0
deriving Repr, Inhabited

/-- The best description of a failed program. -/
def describeFailure (message : String) (errors output : Option String) : String :=
  let streams := [errors, output].filterMap id
  match (streams.map Text.trim).find? (· != "") with
  | some text => text
  | none => message

def commandLine (command : String) (args : List String) : String :=
  " ".intercalate (command :: args)

/-- What the system says of a program that it cannot start. -/
def notStarted (command : String) : String :=
  if command = "" then "The argument 'file' cannot be empty. Received ''"
  else "spawn " ++ command ++ " ENOENT"

/-- The output of a program. `run` tells how the program ended, or that there is no such program. -/
def execute (run : String → List String → Option Ended) (command : String) (args : List String) :
    Except AppError String :=
  let line := commandLine command args
  match run command args with
  | none => .error (.program line (notStarted command))
  | some ended =>
    if ended.status = 0 then .ok ended.output
    else
      let message := "Command failed: " ++ line ++ "\n" ++ ended.errors
      .error (.program line (describeFailure message (some ended.errors) (some ended.output)))

end LintEngine.Program
