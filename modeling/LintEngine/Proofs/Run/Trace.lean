/-
The trace of a run: the steps that it will take, and the fault that ends it, if one does. A pull takes
the steps up to the next issue off the trace and leaves a run that stands for the rest (`pull_follows`).
The linters of a run can be started under different rules, as the rules may change between two pulls; a
trace is taken under a plan, which has rules for each linter still to be started.
-/
import LintEngine.Proofs.Run.Ledger

namespace LintEngine

/-- The steps of a run, and the fault that ends it, if one does. -/
abbrev Trace := List Step × Option Fault

namespace Trace

/-- The trace without steps. -/
def empty : Trace := ([], none)

/-- Steps in front of a trace. -/
def after (steps : List Step) (t : Trace) : Trace :=
  (steps ++ t.1, t.2)

/-- One trace followed by another, which a fault of the first one prevents. -/
def andThen (t u : Trace) : Trace :=
  match t.2 with
  | some _ => t
  | none => u.after t.1

/-- What a pull gives when no issue is left. -/
def ending : Option Fault → Pulled
  | none => .finished
  | some fault => .faulted fault

/-- Takes from steps those up to the next issue: the steps taken, the answer and what is left. -/
def pullFrom (fault? : Option Fault) : List Step → List Step × Pulled × Trace
  | [] => ([], ending fault?, empty)
  | .issue producer i :: steps => ([.issue producer i], .issue i, (steps, fault?))
  | .event e :: steps =>
    let (taken, pulled, rest) := pullFrom fault? steps
    (.event e :: taken, pulled, rest)

/-- Takes the steps up to the next issue off a trace. -/
def pull (t : Trace) : List Step × Pulled × Trace :=
  pullFrom t.2 t.1

end Trace

namespace Session

@[simp] theorem issuesOf_append (l m : List Step) : issuesOf (l ++ m) = issuesOf l ++ issuesOf m :=
  List.filterMap_append

@[simp] theorem eventsOf_append (l m : List Step) : eventsOf (l ++ m) = eventsOf l ++ eventsOf m :=
  List.filterMap_append

@[simp] theorem issuesOf_events (events : List Event) : issuesOf (events.map .event) = [] := by
  induction events with
  | nil => rfl
  | cons e events ih => exact ih

@[simp] theorem eventsOf_events (events : List Event) : eventsOf (events.map .event) = events := by
  induction events with
  | nil => rfl
  | cons e events ih => exact congrArg (e :: ·) ih

end Session

/-! ## Traces of scripts and of classes -/

/-- The trace of the script of a linter. -/
def Script.trace (producer : Producer) (script : Script) : Trace :=
  (script.steps producer, script.fault?)

/-- The rules that a plan has for the linters after the next `n`. -/
def laterRules (plan : Nat → IgnoreConfig) (n : Nat) : Nat → IgnoreConfig :=
  fun k => plan (n + k)

@[simp] theorem laterRules_zero (plan : Nat → IgnoreConfig) : laterRules plan 0 = plan := by
  funext k; unfold laterRules; rw [Nat.zero_add]

@[simp] theorem laterRules_laterRules (plan : Nat → IgnoreConfig) (m n : Nat) :
    laterRules (laterRules plan m) n = laterRules plan (m + n) := by
  funext k; unfold laterRules; rw [Nat.add_assoc]

/-- All that classes do, from start to end, when each linter is started under rules of its own. -/
def Strategies.traceUnder (s : Strategies) (stage : String) (ctx : LintContext) :
    (Nat → IgnoreConfig) → List LinterClass → Trace
  | _, [] => .empty
  | plan, c :: cs =>
    match s.start (plan 0) stage ctx c with
    | (started, .error fault) => Trace.after (started.map .event) ([], some fault)
    | (started, .ok (producer, script)) =>
      let later := traceUnder s stage ctx (laterRules plan 1) cs
      Trace.after (started.map .event) ((script.trace producer).andThen later)

/-- The trace that a run stands for. -/
def Run.trace (s : Strategies) (candidates : String → List LinterClass) (plan : Nat → IgnoreConfig) :
    Run → Trace
  | .closed => Trace.empty
  | .working stage ctx producer script rest =>
    (script.trace producer).andThen (s.traceUnder stage ctx plan rest)
  | .waiting stage ctx =>
    match s.select stage ctx (candidates stage) with
    | .error fault => ([], some fault)
    | .ok chosen => s.traceUnder stage ctx plan chosen

/-- Under the same rules for every linter this is the trace of the classes. -/
theorem Strategies.traceUnder_const (s : Strategies) (ignores : IgnoreConfig) (stage : String)
    (ctx : LintContext) (classes : List LinterClass) :
    s.traceUnder stage ctx (fun _ => ignores) classes = s.trace ignores stage ctx classes := by
  induction classes with
  | nil => rfl
  | cons c cs ih =>
    have hlater : s.traceUnder stage ctx (laterRules (fun _ => ignores) 1) cs = _ := ih
    rw [traceUnder, trace]
    cases hstart : s.start ignores stage ctx c with
    | mk started result =>
      cases result with
      | error fault => exact Prod.ext (List.append_nil _) rfl
      | ok p =>
        simp only [hlater, Trace.after, Trace.andThen, Script.trace]
        cases p.2.fault? <;> simp [List.append_assoc]

/-! ## One pull -/

namespace Trace

theorem pull_after_events (events : List Event) (t : Trace) :
    (t.after (events.map .event)).pull = (events.map .event ++ t.pull.1, t.pull.2) := by
  induction events with
  | nil => rfl
  | cons e events ih =>
    have hstep : (t.after ((e :: events).map .event)).pull =
      (.event e :: (t.after (events.map .event)).pull.1, (t.after (events.map .event)).pull.2) := rfl
    rw [hstep, ih]; rfl

theorem pull_after_issue (producer : Producer) (i : Issue) (t : Trace) :
    (t.after [.issue producer i]).pull = ([.issue producer i], .issue i, t) := rfl

theorem after_andThen (steps : List Step) (t u : Trace) :
    (t.after steps).andThen u = (t.andThen u).after steps := by
  obtain ⟨steps', fault?⟩ := t
  cases fault? with
  | some fault => rfl
  | none => exact Prod.ext (List.append_assoc ..) rfl

/-- A pull of a script with more behind it stops at the script's next issue or fault, and goes on
behind it when the script has neither. -/
theorem pull_script_andThen (producer : Producer) (script : Script) (later : Trace) :
    ((script.trace producer).andThen later).pull =
      match script.next with
      | (events, .issue i script) =>
        (events.map .event ++ [.issue producer i], .issue i, (script.trace producer).andThen later)
      | (events, .failed fault) => (events.map .event, .faulted fault, empty)
      | (events, .done) => (events.map .event ++ later.pull.1, later.pull.2) := by
  induction script with
  | done => rfl
  | fail fault => rfl
  | issue i rest ih =>
    have hissue : (Script.issue i rest).trace producer = (rest.trace producer).after [.issue producer i] :=
      rfl
    rw [hissue, after_andThen, pull_after_issue]; rfl
  | event e rest ih =>
    have hevent : (Script.event e rest).trace producer = (rest.trace producer).after ([e].map .event) :=
      rfl
    rw [hevent, after_andThen, pull_after_events, ih, Script.next]
    cases rest.next with
    | mk events head => cases head <;> rfl

end Trace

namespace Run

/-- What is started in search of an issue once a linter is at work: all that `later` says when its
script has no issue left and does not fail, else nothing. -/
def startedBehind (script : Script) (later : List LinterClass) : List LinterClass :=
  match script.next.2 with
  | .done => later
  | .issue _ _ | .failed _ => []

/-- The classes whose linters are started, one after the other, in search of the next issue. -/
def startedFor (s : Strategies) (ignores : IgnoreConfig) (stage : String) (ctx : LintContext) :
    List LinterClass → List LinterClass
  | [] => []
  | c :: cs =>
    match (s.start ignores stage ctx c).2 with
    | .error _ => [c]
    | .ok (_, script) => c :: startedBehind script (startedFor s ignores stage ctx cs)

/-- The classes whose linters are started by a pull. -/
def started (s : Strategies) (candidates : String → List LinterClass) (o : Orchestrator) :
    Run → List LinterClass
  | .closed => []
  | .working stage ctx _ script rest => startedBehind script (startedFor s o.ignores stage ctx rest)
  | .waiting stage ctx =>
    match s.select stage ctx (candidates stage) with
    | .error _ => []
    | .ok chosen => startedFor s o.ignores stage ctx chosen

/-- A pull of a run does what a pull of a trace does: the answer is the same, the events are those of
the steps taken, their issue is taken down, and the run left stands for what is left of the trace. -/
structure Follows (s : Strategies) (candidates : String → List LinterClass) (plan : Nat → IgnoreConfig)
    (o : Orchestrator) (done : List Event × Pulled × Run × Orchestrator)
    (expected : List Step × Pulled × Trace) : Prop where
  events : done.1 = Session.eventsOf expected.1
  answer : done.2.1 = expected.2.1
  rest : done.2.2.1.trace s candidates plan = expected.2.2
  state : done.2.2.2 = expected.1.foldl Orchestrator.observe o

section Follows

variable {s : Strategies} {candidates : String → List LinterClass} {plan : Nat → IgnoreConfig}
variable {o : Orchestrator} {stage : String} {ctx : LintContext}

theorem foldl_observe_events (o : Orchestrator) (events : List Event) :
    (events.map Step.event).foldl Orchestrator.observe o = o := by
  induction events with
  | nil => rfl
  | cons e events ih => exact ih

theorem Follows.after_events {done : List Event × Pulled × Run × Orchestrator} {t : Trace}
    (h : Follows s candidates plan o done t.pull) (events : List Event) :
    Follows s candidates plan o (events ++ done.1, done.2) (t.after (events.map .event)).pull := by
  rw [Trace.pull_after_events]
  refine ⟨?_, h.answer, h.rest, ?_⟩
  · rw [Session.eventsOf_append, Session.eventsOf_events, h.events]
  · rw [List.foldl_append, foldl_observe_events, h.state]

theorem workOff_follows (producer : Producer) (script : Script) {rest started : List LinterClass}
    (later : Unit → List Event × Advance)
    (hlater : script.next.2 = .done → Follows s candidates (laterRules plan started.length) o
      ((later ()).1, settle o stage ctx (later ()).2) (s.traceUnder stage ctx plan rest).pull) :
    Follows s candidates (laterRules plan (startedBehind script started).length) o
      ((workOff producer script rest later).1,
        settle o stage ctx (workOff producer script rest later).2)
      ((script.trace producer).andThen (s.traceUnder stage ctx plan rest)).pull := by
  rw [Trace.pull_script_andThen]
  unfold workOff startedBehind
  cases hnext : script.next with
  | mk events head =>
    cases head with
    | issue i script =>
      refine ⟨?_, rfl, ?_, ?_⟩
      · rw [Session.eventsOf_append, Session.eventsOf_events]; exact (List.append_nil _).symm
      · show Run.trace s candidates (laterRules plan 0) _ = _
        rw [laterRules_zero]; rfl
      · rw [List.foldl_append, foldl_observe_events]; rfl
    | failed fault =>
      exact ⟨(Session.eventsOf_events _).symm, rfl, rfl, (foldl_observe_events ..).symm⟩
    | done =>
      have hbehind := (hlater (by rw [hnext])).after_events events
      rw [Trace.pull_after_events] at hbehind
      exact hbehind

theorem startedFor_ne_nil (ignores : IgnoreConfig) (c : LinterClass) (cs : List LinterClass) :
    0 < (startedFor s ignores stage ctx (c :: cs)).length := by
  unfold startedFor
  split <;> exact Nat.succ_pos _

/-- The search for the next issue among the classes still to come follows their trace, under every
plan that has the rules at hand for the linters which it starts. -/
theorem startNext_follows (s : Strategies) (candidates : String → List LinterClass)
    (plan : Nat → IgnoreConfig) (o : Orchestrator) (stage : String) (ctx : LintContext)
    (ignores : IgnoreConfig) (classes : List LinterClass)
    (hplan : ∀ k < (startedFor s ignores stage ctx classes).length, plan k = ignores) :
    Follows s candidates (laterRules plan (startedFor s ignores stage ctx classes).length) o
      ((startNext s ignores stage ctx classes).1,
        settle o stage ctx (startNext s ignores stage ctx classes).2)
      (s.traceUnder stage ctx plan classes).pull := by
  induction classes generalizing plan with
  | nil => exact ⟨rfl, rfl, rfl, rfl⟩
  | cons c cs ih =>
    have hfirst : plan 0 = ignores := hplan 0 (startedFor_ne_nil ignores c cs)
    rw [Strategies.traceUnder, hfirst, startNext]
    rw [startedFor] at hplan ⊢
    cases hstart : s.start ignores stage ctx c with
    | mk events result =>
      rw [hstart] at hplan
      cases result with
      | error fault =>
        have hfault : Follows s candidates (laterRules plan 1) o
            ([], settle o stage ctx (.faulted fault)) (Trace.pull ([], some fault)) :=
          ⟨rfl, rfl, rfl, rfl⟩
        simpa using hfault.after_events events
      | ok p =>
        obtain ⟨producer, script⟩ := p
        -- the rules of the classes behind count only when the search gets to them
        have hlater : script.next.2 = .done → _ := fun hdone =>
          ih (laterRules plan 1) fun k hk => by
            refine hplan (1 + k) ?_
            show 1 + k < (c :: startedBehind script (startedFor s ignores stage ctx cs)).length
            rw [startedBehind, hdone, List.length_cons]; simp only; omega
        have hfollows := (workOff_follows producer script
          (fun _ => startNext s ignores stage ctx cs) hlater).after_events events
        rw [laterRules_laterRules, Nat.add_comm 1] at hfollows
        exact hfollows

/-- A pull of a run follows the trace of the run, under every plan that has the rules in effect for
the linters which the pull starts. -/
theorem pull_follows (s : Strategies) (candidates : String → List LinterClass)
    (plan : Nat → IgnoreConfig) (o : Orchestrator) (r : Run)
    (hplan : ∀ k < (r.started s candidates o).length, plan k = o.ignores) :
    Follows s candidates (laterRules plan (r.started s candidates o).length) (r.begun o)
      (r.pull s candidates o) (r.trace s candidates plan).pull := by
  cases r with
  | closed => exact ⟨rfl, rfl, rfl, rfl⟩
  | working stage ctx producer script rest =>
    have hlater : script.next.2 = .done → _ := fun hdone =>
      startNext_follows s candidates plan o stage ctx o.ignores rest fun k hk => by
        refine hplan k ?_
        rw [started, startedBehind, hdone]; exact hk
    exact workOff_follows producer script (fun _ => startNext s o.ignores stage ctx rest) hlater
  | waiting stage ctx =>
    rw [started] at hplan ⊢
    rw [pull, trace, begun]
    cases hselect : s.select stage ctx (candidates stage) with
    | error fault => exact ⟨rfl, rfl, rfl, rfl⟩
    | ok chosen =>
      rw [hselect] at hplan
      exact startNext_follows s candidates plan o.reset stage ctx o.ignores chosen hplan

end Follows

/-! ## Runs that have been pulled -/

/-- The run is not about to be started. -/
def IsStarted : Run → Prop
  | .waiting _ _ => False
  | .working _ _ _ _ _ | .closed => True

theorem settle_isStarted (o : Orchestrator) (stage : String) (ctx : LintContext) (a : Advance) :
    (settle o stage ctx a).2.1.IsStarted := by
  cases a <;> trivial

theorem pull_isStarted (s : Strategies) (candidates : String → List LinterClass) (o : Orchestrator)
    (r : Run) : (r.pull s candidates o).2.2.1.IsStarted := by
  cases r with
  | closed => trivial
  | working stage ctx producer script rest => exact settle_isStarted ..
  | waiting stage ctx =>
    rw [pull]
    cases s.select stage ctx (candidates stage) with
    | error fault => trivial
    | ok chosen => exact settle_isStarted ..

theorem IsStarted.begun_eq {r : Run} (h : r.IsStarted) (o : Orchestrator) : r.begun o = o := by
  cases r with
  | waiting stage ctx => cases h
  | working stage ctx producer script rest => rfl
  | closed => rfl

/-- Once a run has been pulled, it is of no account to it which classes are candidates. -/
theorem IsStarted.trace_eq {r : Run} (h : r.IsStarted) (s : Strategies)
    (candidates candidates' : String → List LinterClass) (plan : Nat → IgnoreConfig) :
    r.trace s candidates plan = r.trace s candidates' plan := by
  cases r with
  | waiting stage ctx => cases h
  | working stage ctx producer script rest => rfl
  | closed => rfl

end Run

end LintEngine
