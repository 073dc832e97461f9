/-
What a linter does, as data that is worked through on demand. A script is the sequence of a linter's
visible steps: events, issues, and an end or a fault. Taking the next issue works off the events
before it and nothing behind it. Main statement: what is worked off and what remains make up the
script again (`afterEvents_next`).
-/
import LintEngine.Issue
import LintEngine.Linter.Context

namespace LintEngine

/-- Something that can be seen from outside while linters work. -/
inductive Event
  | began (linter : String) (projectDir : String) (artifactDirs : List String)
      (project : Option Value)
  /-- A linter is about to report the issue at a position. -/
  | emitted (linter : String) (position : Nat)
  | ended (linter : String)
  | note (text : String)
deriving Inhabited

/-- What a linter still has to do. -/
inductive Script
  | done
  | fail (fault : Fault)
  | event (e : Event) (rest : Script)
  | issue (i : Issue) (rest : Script)
deriving Inhabited

namespace Script

/-- The script that reports issues without anything between them. -/
def ofIssues : List Issue → Script
  | [] => .done
  | i :: r => .issue i (ofIssues r)

def afterEvents (events : List Event) (s : Script) : Script :=
  events.foldr .event s

/-- How the search for the next issue ends. -/
inductive Head
  | issue (i : Issue) (rest : Script)
  | done
  | failed (fault : Fault)

/-- The events up to the next issue or the end, and what comes there. -/
def next : Script → List Event × Head
  | .done => ([], .done)
  | .fail fault => ([], .failed fault)
  | .event e rest => let (events, head) := next rest; (e :: events, head)
  | .issue i rest => ([], .issue i rest)

def Head.toScript : Head → Script
  | .issue i rest => .issue i rest
  | .done => .done
  | .failed fault => .fail fault

theorem afterEvents_next (s : Script) : afterEvents s.next.1 s.next.2.toScript = s := by
  induction s with
  | done => rfl
  | fail _ => rfl
  | event e rest ih => simp only [next, afterEvents, List.foldr_cons] at *; rw [ih]
  | issue _ _ _ => rfl

def issues : Script → List Issue
  | .done | .fail _ => []
  | .event _ rest => issues rest
  | .issue i rest => i :: issues rest

def events : Script → List Event
  | .done | .fail _ => []
  | .event e rest => e :: events rest
  | .issue _ rest => events rest

def fault? : Script → Option Fault
  | .done => none
  | .fail fault => some fault
  | .event _ rest | .issue _ rest => fault? rest

/-- Drops the issues that `hide` says to hide. A fault of `hide` ends the script. -/
def hideIssues (hide : Issue → Except Fault Bool) : Script → Script
  | .done => .done
  | .fail fault => .fail fault
  | .event e rest => .event e (hideIssues hide rest)
  | .issue i rest =>
    match hide i with
    | .error fault => .fail fault
    | .ok true => hideIssues hide rest
    | .ok false => .issue i (hideIssues hide rest)

end Script

/-- What happens when a linter or a filter is called: some events at once, and then either a fault
or a script to be worked through on demand. -/
structure Opening where
  events : List Event := []
  script : Except Fault Script
deriving Inhabited

namespace Opening

/-- Nothing happens at once. -/
def lazy (s : Script) : Opening := { script := .ok s }

end Opening

end LintEngine
