/-
Whether an issue is hidden. The globs of an id are tried in order, so a glob without a valid
expression is a fault only when no earlier one has matched.
-/
import LintEngine.Glob.Match
import LintEngine.Ignore.Config
import LintEngine.Issue

namespace LintEngine

/-- Whether one of the globs matches the name; they are tried from first to last. -/
def anyGlobMatches (name : String) : List String → Except Fault Bool
  | [] => .ok false
  | g :: r =>
    match (Glob.ofString g).matches? name with
    | .error fault => .error fault
    | .ok true => .ok true
    | .ok false => anyGlobMatches name r

def IgnoreSpec.hides (s : IgnoreSpec) (issue : Issue) : Except Fault Bool :=
  match s.ids with
  | .all => .ok true
  | .only ids =>
    if issue.id ∈ ids then .ok true
    else
      match s.byFilename.find? issue.id with
      | none => .ok false
      | some globs => anyGlobMatches issue.filename globs.toList

/-- Whether the configuration hides an issue of a linter; a linter without a spec hides nothing. -/
def IgnoreConfig.hides (c : IgnoreConfig) (linter : String) (issue : Issue) : Except Fault Bool :=
  match c.find? linter with
  | none => .ok false
  | some s => s.hides issue

end LintEngine
