/-
The report of a lint pass, its verdict and the exit status of the command. Only an error makes the
command fail.
-/
import LintEngine.Issue
import LintEngine.Ordered.Map

namespace LintEngine

/-- The line for one issue; the file and the link stand in it only when there are any. -/
def Issue.line (i : Issue) : String :=
  "  - [" ++ i.severity.label ++ "] " ++ i.id ++ ": " ++ i.message ++
    (if i.filename = "" then "" else " (" ++ i.filename ++ ")") ++
    (if i.url = "" then "" else " <" ++ i.url ++ ">")

namespace Report

def header : String := "lint results:"

/-- The lines of a report: for each linter its name and its issues. Without groups there are none. -/
def lines (groups : OrderedMap String (List Issue)) : List String :=
  if groups.toList = [] then []
  else header :: groups.toList.flatMap fun g => (g.1 ++ ":") :: g.2.map Issue.line

/-- The closing line for a pass over something. -/
def verdict (highest : Option Severity) (subject : String) : String :=
  match highest with
  | none => "Linted " ++ subject ++ " successfully."
  | some .error => "Errors found in " ++ subject
  | some _ => "Possible issues found in " ++ subject

def exitStatus (highest : Option Severity) : Nat :=
  if highest = some .error then 2 else 0

end Report

end LintEngine
