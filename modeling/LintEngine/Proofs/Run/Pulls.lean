/-
Pulling a run again and again. Pulls in a row take off the trace of a run what they give
(`pulls_follow`): their answers are the issues of the trace, one by one, then its end, then nothing more
(`answers_eq`), and what the orchestrator holds in the end are the issues delivered.
-/
import LintEngine.Proofs.Run.Trace

namespace LintEngine

/-! ## Deliveries -/

/-- The issue that a step delivers, under the name of its linter. -/
def Step.delivery? : Step → Option (String × Issue)
  | .event _ => none
  | .issue producer i => some (producer.name, i)

namespace Session

/-- The issues among the steps of a run, each under the name of its linter. -/
def deliveriesOf (steps : List Step) : List (String × Issue) :=
  steps.filterMap Step.delivery?

@[simp] theorem deliveriesOf_append (l m : List Step) :
    deliveriesOf (l ++ m) = deliveriesOf l ++ deliveriesOf m :=
  List.filterMap_append

@[simp] theorem deliveriesOf_events (events : List Event) : deliveriesOf (events.map .event) = [] := by
  induction events with
  | nil => rfl
  | cons e events ih => exact ih

@[simp] theorem deliveriesOf_issue (producer : Producer) (i : Issue) (steps : List Step) :
    deliveriesOf (.issue producer i :: steps) = (producer.name, i) :: deliveriesOf steps := rfl

theorem issuesOf_eq (steps : List Step) : issuesOf steps = (deliveriesOf steps).map Prod.snd := by
  induction steps with
  | nil => rfl
  | cons step steps ih =>
    cases step with
    | event e => exact ih
    | issue producer i => exact congrArg (i :: ·) ih

end Session

/-- A linter delivers the issues of its script, all under its name. -/
theorem Script.deliveriesOf_steps (producer : Producer) (script : Script) :
    Session.deliveriesOf (script.steps producer) = script.issues.map (producer.name, ·) := by
  induction script with
  | done => rfl
  | fail fault => rfl
  | event e rest ih => exact ih
  | issue i rest ih => exact congrArg ((producer.name, i) :: ·) ih

theorem Script.issuesOf_steps (producer : Producer) (script : Script) :
    Session.issuesOf (script.steps producer) = script.issues := by
  rw [Session.issuesOf_eq, deliveriesOf_steps, List.map_map]
  exact List.map_id _

namespace Orchestrator

/-- Takes down issues, each under the name of its linter. -/
def recordAll (o : Orchestrator) (deliveries : List (String × Issue)) : Orchestrator :=
  deliveries.foldl (fun o d => o.record d.1 d.2) o

theorem issues_recordAll (o : Orchestrator) (deliveries : List (String × Issue)) :
    (o.recordAll deliveries).issues = o.issues ++ deliveries.map Prod.snd := by
  induction deliveries generalizing o with
  | nil => exact (List.append_nil _).symm
  | cons d deliveries ih =>
    have hrest : (o.recordAll (d :: deliveries)).issues = _ := ih (o.record d.1 d.2)
    rw [hrest]
    exact List.append_assoc o.issues [d.2] (deliveries.map Prod.snd)

theorem ignores_recordAll (o : Orchestrator) (deliveries : List (String × Issue)) :
    (o.recordAll deliveries).ignores = o.ignores := by
  induction deliveries generalizing o with
  | nil => rfl
  | cons d deliveries ih => exact ih (o.record d.1 d.2)

/-- Watching steps comes to taking down what they deliver. -/
theorem foldl_observe_eq (o : Orchestrator) (steps : List Step) :
    steps.foldl observe o = o.recordAll (Session.deliveriesOf steps) := by
  induction steps generalizing o with
  | nil => rfl
  | cons step steps ih =>
    rw [List.foldl_cons, ih]
    cases step <;> rfl

end Orchestrator

/-! ## Pulls of a trace -/

/-- The answers to a number of pulls of a run that delivers issues and then ends: the issues one by
one, the end, and from then on only that there is nothing more. -/
def Pulled.sequence (fault? : Option Fault) : List Issue → Nat → List Pulled
  | _, 0 => []
  | [], n + 1 => Trace.ending fault? :: List.replicate n .finished
  | i :: issues, n + 1 => .issue i :: sequence fault? issues n

theorem Pulled.sequence_prefix (fault? : Option Fault) (issues : List Issue) {m n : Nat} (h : m ≤ n) :
    sequence fault? issues m <+: sequence fault? issues n := by
  induction issues generalizing m n with
  | nil =>
    cases m with
    | zero => exact List.nil_prefix
    | succ m =>
      cases n with
      | zero => omega
      | succ n =>
        refine List.cons_prefix_cons.2 ⟨rfl, ?_⟩
        exact ⟨List.replicate (n - m) .finished, by
          rw [List.replicate_append_replicate]; congr 1; omega⟩
  | cons i issues ih =>
    cases m with
    | zero => exact List.nil_prefix
    | succ m =>
      cases n with
      | zero => omega
      | succ n => exact List.cons_prefix_cons.2 ⟨rfl, ih (by omega)⟩

/-- One pull more than there are issues gives them all, and how it ends. -/
theorem Pulled.sequence_length_succ (fault? : Option Fault) (issues : List Issue) :
    sequence fault? issues (issues.length + 1) = issues.map .issue ++ [Trace.ending fault?] := by
  induction issues with
  | nil => rfl
  | cons i issues ih => exact congrArg (Pulled.issue i :: ·) ih

/-- Answers that end with a fault tell which issues there are. -/
theorem Pulled.sequence_eq_faulted_iff {fault? : Option Fault} {fault : Fault}
    {delivered issues : List Issue} :
    sequence fault? delivered (issues.length + 1) = issues.map .issue ++ [.faulted fault] ↔
      fault? = some fault ∧ delivered = issues := by
  refine ⟨?_, ?_⟩
  · intro h
    induction issues generalizing delivered with
    | nil =>
      cases delivered with
      | nil => cases fault? <;> cases h; exact ⟨rfl, rfl⟩
      | cons i delivered => cases h
    | cons i issues ih =>
      cases delivered with
      | nil => cases fault? <;> cases h
      | cons j delivered =>
        obtain ⟨hhead, htail⟩ := List.cons.inj h
        cases hhead
        obtain ⟨hfault, hissues⟩ := ih htail
        exact ⟨hfault, by rw [hissues]⟩
  · rintro ⟨rfl, rfl⟩
    exact sequence_length_succ (some fault) delivered

namespace Trace

/-- The steps that a number of pulls take off a trace. -/
def taken (t : Trace) : Nat → List Step
  | 0 => []
  | n + 1 => t.pull.1 ++ taken t.pull.2.2 n

/-- The answers to a number of pulls. -/
def answers (t : Trace) : Nat → List Pulled
  | 0 => []
  | n + 1 => t.pull.2.1 :: answers t.pull.2.2 n

/-- A pull takes off everything when there are only events, else the events before the first issue and
that issue. -/
theorem pull_cases (t : Trace) : ∃ events : List Event,
    (t.1 = events.map .event ∧ t.pull = (t.1, ending t.2, empty)) ∨
    ∃ producer i rest, t.1 = events.map .event ++ .issue producer i :: rest ∧
      t.pull = (events.map .event ++ [.issue producer i], .issue i, (rest, t.2)) := by
  obtain ⟨steps, fault?⟩ := t
  induction steps with
  | nil => exact ⟨[], .inl ⟨rfl, rfl⟩⟩
  | cons step steps ih =>
    cases step with
    | issue producer i => exact ⟨[], .inr ⟨producer, i, steps, rfl, rfl⟩⟩
    | event e =>
      have hpull : pull (.event e :: steps, fault?) =
        (.event e :: (pull (steps, fault?)).1, (pull (steps, fault?)).2) := rfl
      rw [hpull]
      obtain ⟨events, ⟨hevents, hall⟩ | ⟨producer, i, rest, hsteps, hissue⟩⟩ := ih
      · exact ⟨e :: events, .inl ⟨congrArg (Step.event e :: ·) hevents, by rw [hall]⟩⟩
      · refine ⟨e :: events, .inr ⟨producer, i, rest, congrArg (Step.event e :: ·) hsteps, ?_⟩⟩
        rw [hissue]; rfl

theorem taken_empty (n : Nat) : empty.taken n = [] := by
  induction n with
  | zero => rfl
  | succ n ih => exact ih

theorem answers_empty (n : Nat) : empty.answers n = List.replicate n .finished := by
  induction n with
  | zero => rfl
  | succ n ih => exact congrArg (Pulled.finished :: ·) ih

theorem answers_eq (t : Trace) (n : Nat) :
    t.answers n = Pulled.sequence t.2 (Session.issuesOf t.1) n := by
  induction n generalizing t with
  | zero => cases Session.issuesOf t.1 <;> rfl
  | succ n ih =>
    rw [answers]
    obtain ⟨events, ⟨hevents, hpull⟩ | ⟨producer, i, rest, hsteps, hpull⟩⟩ := t.pull_cases
    · rw [hpull, answers_empty, hevents, Session.issuesOf_events]; rfl
    · rw [hpull, ih, hsteps, Session.issuesOf_append, Session.issuesOf_events]; rfl

/-- As many issues are taken off as there are pulls. -/
theorem deliveriesOf_taken (t : Trace) (n : Nat) :
    Session.deliveriesOf (t.taken n) = (Session.deliveriesOf t.1).take n := by
  induction n generalizing t with
  | zero => rfl
  | succ n ih =>
    rw [taken]
    obtain ⟨events, ⟨hevents, hpull⟩ | ⟨producer, i, rest, hsteps, hpull⟩⟩ := t.pull_cases
    · rw [hpull, taken_empty, List.append_nil, hevents, Session.deliveriesOf_events]; rfl
    · simp [hpull, hsteps, ih]

/-- One pull more than there are issues takes everything off. -/
theorem taken_of_deliveries_lt (t : Trace) {n : Nat} (h : (Session.deliveriesOf t.1).length < n) :
    t.taken n = t.1 := by
  induction n generalizing t with
  | zero => omega
  | succ n ih =>
    rw [taken]
    obtain ⟨events, ⟨hevents, hpull⟩ | ⟨producer, i, rest, hsteps, hpull⟩⟩ := t.pull_cases
    · rw [hpull, taken_empty, List.append_nil]
    · have hrest : (Session.deliveriesOf rest).length < n := by
        rw [hsteps] at h
        simpa using h
      rw [hpull, hsteps, ih (rest, t.2) hrest, List.append_assoc]; rfl

end Trace

/-! ## Pulls of a run -/

/-- What comes of a number of pulls: their events, their answers, the run that is left and what the
orchestrator holds. -/
structure Pulls where
  events : List Event
  answers : List Pulled
  run : Run
  state : Orchestrator

namespace Run

/-- Pulls a run a number of times, with nothing else in between. -/
def pulls (s : Strategies) (candidates : String → List LinterClass) :
    Nat → Run → Orchestrator → Pulls
  | 0, r, o => { events := [], answers := [], run := r, state := o }
  | n + 1, r, o =>
    let (events, pulled, r, o) := r.pull s candidates o
    let later := pulls s candidates n r o
    { later with events := events ++ later.events, answers := pulled :: later.answers }

theorem ignores_begun (r : Run) (o : Orchestrator) : (r.begun o).ignores = o.ignores := by
  cases r <;> rfl

/-- Pulls leave the rules alone. -/
theorem ignores_pull (s : Strategies) (candidates : String → List LinterClass) (o : Orchestrator)
    (r : Run) : (r.pull s candidates o).2.2.2.ignores = o.ignores := by
  rw [(pull_follows s candidates (fun _ => o.ignores) o r fun _ _ => rfl).state,
    Orchestrator.foldl_observe_eq, Orchestrator.ignores_recordAll, ignores_begun]

/-- Pulls in a row, under the rules of the orchestrator, take off the trace of the run what they
give. -/
theorem pulls_follow (s : Strategies) (candidates : String → List LinterClass) (n : Nat) (r : Run)
    (o : Orchestrator) :
    let t := r.trace s candidates fun _ => o.ignores
    let p := r.pulls s candidates n o
    p.events = Session.eventsOf (t.taken n) ∧ p.answers = t.answers n ∧
      p.state = (t.taken n).foldl Orchestrator.observe (if n = 0 then o else r.begun o) := by
  induction n generalizing r o with
  | zero => exact ⟨rfl, rfl, rfl⟩
  | succ n ih =>
    have hpull := pull_follows s candidates (fun _ => o.ignores) o r fun _ _ => rfl
    have hlater := ih (r.pull s candidates o).2.2.1 (r.pull s candidates o).2.2.2
    have hrest : (r.pull s candidates o).2.2.1.trace s candidates (fun _ => o.ignores) = _ := hpull.rest
    rw [ignores_pull, hrest, (pull_isStarted s candidates o r).begun_eq, ite_self] at hlater
    obtain ⟨hevents, hanswers, hstate⟩ := hlater
    refine ⟨?_, ?_, ?_⟩
    · rw [Trace.taken, Session.eventsOf_append, ← hpull.events, ← hevents]; rfl
    · rw [Trace.answers, ← hpull.answer, ← hanswers]; rfl
    · rw [Trace.taken, List.foldl_append, if_neg (Nat.succ_ne_zero n), ← hpull.state, ← hstate]; rfl

/-- A run that is drained takes its whole trace at once. -/
theorem drain_eq_trace (s : Strategies) (candidates : String → List LinterClass) (o : Orchestrator)
    (stage : String) (ctx : LintContext) :
    let t := (waiting stage ctx).trace s candidates fun _ => o.ignores
    s.drain candidates o stage ctx = (t.1, t.2, t.1.foldl Orchestrator.observe o.reset) := by
  unfold Strategies.drain trace
  simp only
  cases s.select stage ctx (candidates stage) with
  | error fault => rfl
  | ok chosen =>
    have hconst := s.traceUnder_const o.ignores stage ctx chosen
    simp only
    rw [hconst]; rfl

/-- Pulls give what draining gives: its issues one by one, then its end; and when they have got to the
end they leave the same behind. -/
theorem pulls_eq_drain (s : Strategies) (candidates : String → List LinterClass) (o : Orchestrator)
    (stage : String) (ctx : LintContext) (n : Nat) :
    let drained := s.drain candidates o stage ctx
    let p := (waiting stage ctx).pulls s candidates n o
    p.answers = Pulled.sequence drained.2.1 (Session.issuesOf drained.1) n ∧
      ((Session.issuesOf drained.1).length < n → p.state = drained.2.2) := by
  intro drained p
  obtain ⟨-, hanswers, hstate⟩ := pulls_follow s candidates n (waiting stage ctx) o
  have hdrained : drained = _ := drain_eq_trace s candidates o stage ctx
  rw [hdrained]
  refine ⟨hanswers.trans (Trace.answers_eq ..), ?_⟩
  intro hn
  rw [Session.issuesOf_eq, List.length_map] at hn
  have hall := Trace.taken_of_deliveries_lt _ hn
  rw [hall, if_neg (Nat.ne_of_gt (Nat.zero_lt_of_lt hn))] at hstate
  exact hstate

/-- What a drained run delivers is what is collected in the end. -/
theorem issues_drain (s : Strategies) (candidates : String → List LinterClass) (o : Orchestrator)
    (stage : String) (ctx : LintContext) :
    let drained := s.drain candidates o stage ctx
    drained.2.2.issues = Session.issuesOf drained.1 := by
  intro drained
  have hdrained : drained = _ := drain_eq_trace s candidates o stage ctx
  rw [hdrained, Orchestrator.foldl_observe_eq, Orchestrator.issues_recordAll, Session.issuesOf_eq]
  exact List.nil_append _

end Run

end LintEngine
