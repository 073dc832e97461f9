/-
Several orchestrators at work side by side. They share one registry unless an orchestrator has a
registry of its own; any number of runs can be open at the same time and be pulled in any order. A
session is advanced by commands, one at a time, and a command names the orchestrator or the run that
it is meant for.
-/
import LintEngine.Run.Orchestrator

namespace LintEngine

structure Worker where
  strategies : Strategies
  /-- Whether it has a registry of its own instead of the shared one. -/
  ownRegistry : Bool := false
  state : Orchestrator := {}

instance : Inhabited Worker := ⟨{ strategies := {} }⟩

/-- Orchestrators, registries, snapshots and open runs, by name. A run belongs to the orchestrator
whose name stands with it. -/
structure Session where
  shared : Registry := {}
  own : OrderedMap String Registry := ∅
  snapshots : OrderedMap String Registry := ∅
  workers : OrderedMap String Worker := ∅
  runs : OrderedMap String (String × Run) := ∅
deriving Inhabited

inductive Command
  | register (worker : String) (c : LinterClass)
  | clear (worker : String)
  | snapshot (worker : String) (name : String)
  /-- Puts a snapshot back, with the classes of the given stages only. -/
  | restore (worker : String) (name : String) (stages : List String)
  | load (worker : String) (dir : String) (cli : Option IgnoreConfig)
  | open (run : String) (worker : String) (stage : String) (ctx : LintContext)
  | pull (run : String)
  | close (run : String)
  | drain (worker : String) (stage : String) (ctx : LintContext)

inductive Reply
  | nothing
  | registry (r : Registry)
  | config (c : IgnoreConfig)
  | pulled (p : Pulled)
  | issues (l : List Issue)
  | fault (f : Fault)
deriving Inhabited

namespace Session

def worker (s : Session) (name : String) : Worker :=
  (s.workers.find? name).getD default

/-- A run by name, behind the name of its orchestrator; one that was never opened is closed. -/
def run (s : Session) (name : String) : String × Run :=
  (s.runs.find? name).getD ("", .closed)

def registry (s : Session) (name : String) : Registry :=
  if (s.worker name).ownRegistry then (s.own.find? name).getD {} else s.shared

def setRegistry (s : Session) (name : String) (r : Registry) : Session :=
  if (s.worker name).ownRegistry then { s with own := s.own.insert name r } else { s with shared := r }

def setState (s : Session) (name : String) (o : Orchestrator) : Session :=
  { s with workers := s.workers.insert name { s.worker name with state := o } }

def issuesOf (steps : List Step) : List Issue :=
  steps.filterMap fun step => match step with
    | .issue _ i => some i
    | .event _ => none

def eventsOf (steps : List Step) : List Event :=
  steps.filterMap fun step => match step with
    | .event e => some e
    | .issue _ _ => none

def step (s : Session) : Command → Session × List Event × Reply
  | .register name c =>
    match (s.registry name).register c with
    | .ok r => (s.setRegistry name r, [], .nothing)
    | .error fault => (s, [], .fault fault)
  | .clear name => (s.setRegistry name {}, [], .nothing)
  | .snapshot name as =>
    let r := s.registry name
    ({ s with snapshots := s.snapshots.insert as r }, [], .registry r)
  | .restore name «from» stages =>
    let r := ((s.snapshots.find? «from»).getD {}).restrict stages
    (s.setRegistry name r, [], .nothing)
  | .load name dir cli =>
    let w := s.worker name
    let (events, o) := w.strategies.load w.state {} dir cli
    (s.setState name o, events, .config o.ignores)
  | .open run name stage ctx =>
    ({ s with runs := s.runs.insert run (name, .waiting stage ctx) }, [], .nothing)
  | .pull run =>
    let (name, r) := s.run run
    let w := s.worker name
    let (events, pulled, r, o) := r.pull w.strategies (s.registry name).forLabel w.state
    ({ s.setState name o with runs := s.runs.insert run (name, r) }, events, .pulled pulled)
  | .close run =>
    let (name, _) := s.run run
    ({ s with runs := s.runs.insert run (name, .closed) }, [], .nothing)
  | .drain name stage ctx =>
    let w := s.worker name
    let (steps, fault, o) := w.strategies.drain (s.registry name).forLabel w.state stage ctx
    (s.setState name o, eventsOf steps,
      match fault with
      | some fault => .fault fault
      | none => .issues (issuesOf steps))

def after (s : Session) (commands : List Command) : Session :=
  commands.foldl (fun s c => (s.step c).1) s

end Session

end LintEngine
