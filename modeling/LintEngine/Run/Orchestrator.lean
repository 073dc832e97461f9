/-
Running the linters of a stage. A run is a value that is advanced by pulls: each pull delivers the
next issue that is neither hidden nor filtered out, and works off no more than it needs to find it.
The orchestrator collects what all its runs deliver, in a flat list and by linter name, and starts
afresh when a run is pulled for the first time. A closed run stays closed (`pull_closed`).
-/
import LintEngine.Ignore.Decision
import LintEngine.Ignore.Merge
import LintEngine.Linter.Registry
import LintEngine.Run.Strategy

namespace LintEngine

/-- What makes one orchestrator different from another. -/
structure Strategies where
  select : Selection := Selection.all
  filter : IssueFilter := IssueFilter.keepAll
  /-- The ignore rules that a project directory holds, with notes on how they were found. -/
  projectIgnores : FileTree → String → List String × IgnoreConfig := fun _ _ => ([], ∅)
  notes : Bool := true

/-- What an orchestrator holds: the ignore rules in effect and what its runs have delivered. -/
structure Orchestrator where
  ignores : IgnoreConfig := ∅
  issues : List Issue := []
  byLinter : OrderedMap String (List Issue) := ∅
deriving Inhabited

namespace Orchestrator

def reset (o : Orchestrator) : Orchestrator :=
  { o with issues := [], byLinter := ∅ }

def record (o : Orchestrator) (linter : String) (i : Issue) : Orchestrator :=
  { o with
    issues := o.issues ++ [i]
    byLinter := o.byLinter.alter linter fun old => old.getD [] ++ [i] }

def highest? (o : Orchestrator) : Option Severity :=
  Severity.highest? (o.issues.map (·.severity))

/-- The summary of what was delivered: only an error counts. -/
def summary (o : Orchestrator) : ExitCode :=
  if o.highest? = some .error then .error else .ok

end Orchestrator

/-- Where issues come from: a class, and the name that its linter goes by. -/
structure Producer where
  cls : LinterClass
  name : String
deriving Inhabited

namespace Strategies

def note (s : Strategies) (text : String) : List Event :=
  if s.notes then [.note text] else []

/-- The rules in effect for a project directory: the project's own, and those of the command line on
top. -/
def rulesFor (project : IgnoreConfig) (cli : Option IgnoreConfig) : IgnoreConfig :=
  let own := IgnoreConfig.merge ∅ project
  match cli with
  | none => own
  | some cli => own.merge cli

def load (s : Strategies) (o : Orchestrator) (files : FileTree) (dir : String)
    (cli : Option IgnoreConfig) : List Event × Orchestrator :=
  let (found, project) := s.projectIgnores files dir
  let config := rulesFor project cli
  (found.map .note ++ s.note ("Loaded ignore rules for " ++ toString config.size ++ " linter(s)"),
    { o with ignores := config })

/-- Starts the linter of a class under the rules in effect: the name it goes by and what it will
report. The class is checked before anything happens. -/
def start (s : Strategies) (ignores : IgnoreConfig) (stage : String) (ctx : LintContext)
    (c : LinterClass) : List Event × Except Fault (Producer × Script) :=
  match c.validate with
  | .error fault => ([], .error fault)
  | .ok (name, _) =>
    let note := s.note ("Running linter " ++ name ++ " (" ++ stage ++ ")")
    let called := c.call ctx
    match called.script with
    | .error fault => (note ++ called.events, .error fault)
    | .ok script =>
      let filtered := s.filter c (script.hideIssues (ignores.hides name)) ctx
      match filtered.script with
      | .error fault => (note ++ called.events ++ filtered.events, .error fault)
      | .ok script => (note ++ called.events ++ filtered.events, .ok (⟨c, name⟩, script))

end Strategies

/-! ## Pulling -/

/-- A run: not yet pulled, in the middle of a linter with the classes that come after it, or over. -/
inductive Run
  | waiting (stage : String) (ctx : LintContext)
  | working (stage : String) (ctx : LintContext) (producer : Producer) (script : Script)
      (rest : List LinterClass)
  | closed
deriving Inhabited

inductive Pulled
  | issue (i : Issue)
  | finished
  | faulted (fault : Fault)
deriving Inhabited

namespace Run

/-- How far a pull gets. -/
inductive Advance
  | delivered (producer : Producer) (i : Issue) (script : Script) (rest : List LinterClass)
  | finished
  | faulted (fault : Fault)

/-- Works off the linter at hand up to its next issue, and goes on with `later` when there is none. -/
def workOff (producer : Producer) (script : Script) (rest : List LinterClass)
    (later : Unit → List Event × Advance) : List Event × Advance :=
  match script.next with
  | (events, .issue i script) => (events, .delivered producer i script rest)
  | (events, .failed fault) => (events, .faulted fault)
  | (events, .done) =>
    let (more, a) := later ()
    (events ++ more, a)

/-- Starts the linters of classes one after the other, up to the next issue. -/
def startNext (s : Strategies) (ignores : IgnoreConfig) (stage : String) (ctx : LintContext) :
    List LinterClass → List Event × Advance
  | [] => ([], .finished)
  | c :: cs =>
    match s.start ignores stage ctx c with
    | (started, .error fault) => (started, .faulted fault)
    | (started, .ok (producer, script)) =>
      let (more, a) := workOff producer script cs fun _ => startNext s ignores stage ctx cs
      (started ++ more, a)

/-- What a pull leaves behind, given how far it got. -/
def settle (o : Orchestrator) (stage : String) (ctx : LintContext) :
    Advance → Pulled × Run × Orchestrator
  | .delivered producer i script rest =>
    (.issue i, .working stage ctx producer script rest, o.record producer.name i)
  | .finished => (.finished, .closed, o)
  | .faulted fault => (.faulted fault, .closed, o)

/-- Delivers the next issue of a run. The first pull forgets what was collected before and chooses
among the candidates. -/
def pull (s : Strategies) (candidates : String → List LinterClass) (o : Orchestrator) :
    Run → List Event × Pulled × Run × Orchestrator
  | .closed => ([], .finished, .closed, o)
  | .working stage ctx producer script rest =>
    let (events, a) := workOff producer script rest fun _ => startNext s o.ignores stage ctx rest
    (events, settle o stage ctx a)
  | .waiting stage ctx =>
    let o := o.reset
    match s.select stage ctx (candidates stage) with
    | .error fault => ([], .faulted fault, .closed, o)
    | .ok chosen =>
      let (events, a) := startNext s o.ignores stage ctx chosen
      (events, settle o stage ctx a)

theorem pull_closed (s : Strategies) (candidates : String → List LinterClass) (o : Orchestrator) :
    pull s candidates o .closed = ([], .finished, .closed, o) := rfl

end Run

/-! ## Draining -/

/-- One step of a run as it is seen from outside. -/
inductive Step
  | event (e : Event)
  | issue (producer : Producer) (i : Issue)
deriving Inhabited

def Script.steps (producer : Producer) : Script → List Step
  | .done | .fail _ => []
  | .event e rest => .event e :: steps producer rest
  | .issue i rest => .issue producer i :: steps producer rest

def Orchestrator.observe (o : Orchestrator) : Step → Orchestrator
  | .event _ => o
  | .issue producer i => o.record producer.name i

namespace Strategies

/-- All that a list of classes does from start to end, and the fault that ends it, if one does. -/
def trace (s : Strategies) (ignores : IgnoreConfig) (stage : String) (ctx : LintContext) :
    List LinterClass → List Step × Option Fault
  | [] => ([], none)
  | c :: cs =>
    match s.start ignores stage ctx c with
    | (started, .error fault) => (started.map .event, some fault)
    | (started, .ok (producer, script)) =>
      match script.fault? with
      | some fault => (started.map .event ++ script.steps producer, some fault)
      | none =>
        let (later, fault) := trace s ignores stage ctx cs
        (started.map .event ++ script.steps producer ++ later, fault)

/-- Runs the candidates of a stage to the end and collects what they deliver. -/
def drain (s : Strategies) (candidates : String → List LinterClass) (o : Orchestrator)
    (stage : String) (ctx : LintContext) : List Step × Option Fault × Orchestrator :=
  let o := o.reset
  match s.select stage ctx (candidates stage) with
  | .error fault => ([], some fault, o)
  | .ok chosen =>
    let (steps, fault) := s.trace o.ignores stage ctx chosen
    (steps, fault, steps.foldl Orchestrator.observe o)

end Strategies

end LintEngine
