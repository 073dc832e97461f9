/-
Strategies of a lint run: which of the candidate classes run, and what becomes of the issues that are
not hidden. Both can be composed; the ready-made ones reorder, repeat, drop and change.
-/
import LintEngine.Linter.Class

namespace LintEngine

/-- Chooses the classes to run from the candidates of a stage, whose word is given. -/
abbrev Selection := String → LintContext → List LinterClass → Except Fault (List LinterClass)

/-- Turns the issues of one linter that are not hidden into those that are reported. -/
abbrev IssueFilter := LinterClass → Script → LintContext → Opening

namespace Selection

def all : Selection := fun _ _ candidates => .ok candidates

/-- A choice that depends on the candidates alone. -/
def ofList (f : List LinterClass → List LinterClass) : Selection :=
  fun _ _ candidates => .ok (f candidates)

def double : Selection := ofList fun cs => cs ++ cs

/-- The candidates without those of a linter name. -/
def drop (name : String) : Selection := ofList (·.filter fun c => c.linterName.text? != some name)

def failing (message : String) : Selection := fun _ _ _ => .error (.raised message true)

/-- The second choice among those of the first. -/
def andThen (first second : Selection) : Selection := fun stage ctx candidates =>
  match first stage ctx candidates with
  | .ok chosen => second stage ctx chosen
  | .error fault => .error fault

end Selection

namespace Script

def mapIssues (f : Issue → Issue) : Script → Script
  | .done => .done
  | .fail fault => .fail fault
  | .event e rest => .event e (mapIssues f rest)
  | .issue i rest => .issue (f i) (mapIssues f rest)

def filterIssues (keep : Issue → Bool) : Script → Script
  | .done => .done
  | .fail fault => .fail fault
  | .event e rest => .event e (filterIssues keep rest)
  | .issue i rest => if keep i then .issue i (filterIssues keep rest) else filterIssues keep rest

def doubleIssues : Script → Script
  | .done => .done
  | .fail fault => .fail fault
  | .event e rest => .event e (doubleIssues rest)
  | .issue i rest => .issue i (.issue i (doubleIssues rest))

/-- Fails in the place of the first issue with an id. -/
def failAt (id : String) (fault : Fault) : Script → Script
  | .done => .done
  | .fail fault' => .fail fault'
  | .event e rest => .event e (failAt id fault rest)
  | .issue i rest => if i.id = id then .fail fault else .issue i (failAt id fault rest)

/-- Ends after a number of issues; for none it does nothing at all. -/
def takeIssues : Nat → Script → Script
  | 0, _ => .done
  | _ + 1, .done => .done
  | _ + 1, .fail fault => .fail fault
  | n + 1, .event e rest => .event e (takeIssues (n + 1) rest)
  | n + 1, .issue i rest => .issue i (takeIssues n rest)

/-- Works the script off at once and reports its issues in the opposite order. -/
def reversed (s : Script) : Opening where
  events := s.events
  script := match s.fault? with
    | some fault => .error fault
    | none => .ok (ofIssues s.issues.reverse)

end Script

namespace IssueFilter

def keepAll : IssueFilter := fun _ s _ => .lazy s

/-- A filter that works on the script alone, on demand. -/
def ofScript (f : Script → Script) : IssueFilter := fun _ s _ => .lazy (f s)

/-- Reports nothing and asks for nothing. -/
def none : IssueFilter := ofScript fun _ => .done

def reverse : IssueFilter := fun _ s _ => s.reversed

/-- Puts the linter and the directory in front of every message. -/
def tag : IssueFilter := fun c s ctx =>
  .lazy (s.mapIssues fun i =>
    { i with message :=
        c.instanceName?.getD "undefined" ++ "@" ++ ctx.projectDir ++ ": " ++ i.message })

/-- The second filter on what the first reports. -/
def andThen (first second : IssueFilter) : IssueFilter := fun c s ctx =>
  let a := first c s ctx
  match a.script with
  | .error _ => a
  | .ok s =>
    let b := second c s ctx
    { b with events := a.events ++ b.events }

end IssueFilter

end LintEngine
