/-
What a run comes to, said without pulls. With the default filter and valid globs the chosen classes run
from the first one to the first that comes to a fault; each delivers what its linter emits, less what
the rules hide, and the fault ends the run (`trace_eq`). Main statement: this is what a run gives that
is pulled until it ends, whatever the orchestrator held before (`pulls_deliver_reference`).
-/
import LintEngine.Proofs.Ignore.Decision
import LintEngine.Proofs.Run.Pulls
import Mathlib.Data.List.Forall2

namespace LintEngine

/-- Whether the decision on an issue is that it may be seen. -/
def IgnoreConfig.shows (rules : IgnoreConfig) (linter : String) (issue : Issue) : Bool :=
  match rules.hides linter issue with
  | .ok hidden => !hidden
  | .error _ => false

theorem IgnoreConfig.shows_of_hides {rules : IgnoreConfig} {linter : String} {issue : Issue}
    {hidden : Bool} (h : rules.hides linter issue = .ok hidden) : rules.shows linter issue = !hidden := by
  unfold shows; rw [h]

theorem IgnoreConfig.shows_iff {rules : IgnoreConfig} (h : rules.Compiles) {linter : String}
    {issue : Issue} : rules.shows linter issue = true ↔ ¬rules.Hides linter issue := by
  obtain ⟨answer, hanswer, hiff⟩ := hides_eq_ok h linter issue
  rw [shows_of_hides hanswer, ← hiff]
  cases answer <;> decide

/-! ## What a class comes to -/

namespace LinterClass

/-- The issues that the linter of a class emits, in order; none when the class may not be used. -/
def emitted (ctx : LintContext) (c : LinterClass) : List Issue :=
  match c.validate, (c.call ctx).script with
  | .ok _, .ok script => script.issues
  | _, _ => []

/-- The fault that a class comes to, if it comes to one: that it may not be used, or else what its
linter raises, when it is called or after some issues. -/
def fault? (ctx : LintContext) (c : LinterClass) : Option Fault :=
  match c.validate, (c.call ctx).script with
  | .error fault, _ => some fault
  | .ok _, .error fault => some fault
  | .ok _, .ok script => script.fault?

/-- The classes from the first one to the first that comes to a fault. -/
def begun (ctx : LintContext) (classes : List LinterClass) : List LinterClass :=
  classes.take (classes.findIdx (fun c => (c.fault? ctx).isSome) + 1)

/-- What the linter of a class emits and rules do not hide, under the name that the class declares. -/
def visible (rules : IgnoreConfig) (ctx : LintContext) (c : LinterClass) : List (String × Issue) :=
  ((c.emitted ctx).filter (rules.shows c.declaredName)).map (c.declaredName, ·)

theorem begun_cons (ctx : LintContext) (c : LinterClass) (cs : List LinterClass) :
    begun ctx (c :: cs) = c :: if (c.fault? ctx).isSome then [] else begun ctx cs := by
  unfold begun
  rw [List.findIdx_cons]
  cases h : (c.fault? ctx).isSome <;> rfl

theorem fault?_of_validate {ctx : LintContext} {c : LinterClass} {fault : Fault}
    (h : c.validate = .error fault) : c.fault? ctx = some fault := by
  unfold fault?
  rw [h]

theorem declaredName_of_validate {c : LinterClass} {name : String} {stage : Stage}
    (h : c.validate = .ok (name, stage)) : c.declaredName = name := by
  unfold declaredName
  rw [text?_linterName_of_validate h]; rfl

end LinterClass

/-- All that the linter of a class does, hidden issues included: the note that it runs, what happens
when it is called, and the steps of its script. A class that may not be used does nothing. -/
def Strategies.activity (s : Strategies) (stage : String) (ctx : LintContext) (c : LinterClass) :
    List Step :=
  match c.validate with
  | .error _ => []
  | .ok (name, _) =>
    let note := s.note ("Running linter " ++ name ++ " (" ++ stage ++ ")")
    (note ++ (c.call ctx).events).map .event ++
      match (c.call ctx).script with
      | .error _ => []
      | .ok script => script.steps ⟨c, name⟩

/-- What happens for a class before its script is worked off: the note that its linter runs, and what the
linter does at once when it is called. -/
def Strategies.opened (s : Strategies) (stage : String) (ctx : LintContext) (c : LinterClass) :
    List Event :=
  s.note ("Running linter " ++ c.declaredName ++ " (" ++ stage ++ ")") ++ (c.call ctx).events

theorem Strategies.activity_eq (s : Strategies) (stage : String) {ctx : LintContext} {c : LinterClass}
    {p : String × Stage} {script : Script} (hvalid : c.validate = .ok p)
    (hscript : (c.call ctx).script = .ok script) : s.activity stage ctx c =
      (s.opened stage ctx c).map .event ++ script.steps ⟨c, c.declaredName⟩ := by
  unfold activity opened
  rw [hvalid, hscript, LinterClass.declaredName_of_validate hvalid]

/-- Whether rules let a step be seen; they hide nothing but issues. -/
def Step.isShown (rules : IgnoreConfig) : Step → Bool
  | .event _ => true
  | .issue producer i => rules.shows producer.name i

/-! ## The trace of classes -/

section Trace

variable {rules : IgnoreConfig}

theorem filter_isShown_events (rules : IgnoreConfig) (events : List Event) :
    (events.map Step.event).filter (Step.isShown rules) = events.map .event := by
  rw [List.filter_eq_self]
  intro step h
  obtain ⟨e, _, rfl⟩ := List.mem_map.1 h
  rfl

/-- Rules hide no events. -/
theorem eventsOf_filter_isShown (rules : IgnoreConfig) (steps : List Step) :
    Session.eventsOf (steps.filter (Step.isShown rules)) = Session.eventsOf steps := by
  induction steps with
  | nil => rfl
  | cons step steps ih =>
    cases step with
    | event e => exact congrArg (e :: ·) ih
    | issue producer i =>
      rw [List.filter_cons]
      split
      · exact ih
      · exact ih

/-- Hiding issues leaves the other steps of a script, and its fault, as they are. -/
theorem Script.hideIssues_eq (h : rules.Compiles) (producer : Producer) (script : Script) :
    (script.hideIssues (rules.hides producer.name)).steps producer =
      (script.steps producer).filter (Step.isShown rules) ∧
    (script.hideIssues (rules.hides producer.name)).fault? = script.fault? := by
  induction script with
  | done => exact ⟨rfl, rfl⟩
  | fail fault => exact ⟨rfl, rfl⟩
  | event e rest ih => exact ⟨congrArg (Step.event e :: ·) ih.1, ih.2⟩
  | issue i rest ih =>
    obtain ⟨answer, hanswer, -⟩ := IgnoreConfig.hides_eq_ok h producer.name i
    have hshown : Step.isShown rules (.issue producer i) = !answer :=
      IgnoreConfig.shows_of_hides hanswer
    unfold hideIssues
    rw [hanswer]
    cases answer with
    | true => exact ⟨by rw [ih.1, steps, List.filter_cons_of_neg (by simp [hshown])], ih.2⟩
    | false => exact ⟨by rw [steps, ih.1, steps, List.filter_cons_of_pos (by simp [hshown])], ih.2⟩

/-- A part of the classes comes after the part before it, unless that ends in a fault. -/
theorem Strategies.trace_append (s : Strategies) (rules : IgnoreConfig) (stage : String)
    (ctx : LintContext) (front back : List LinterClass) :
    s.trace rules stage ctx (front ++ back) =
      Trace.andThen (s.trace rules stage ctx front) (s.trace rules stage ctx back) := by
  induction front with
  | nil => rfl
  | cons c front ih =>
    rw [List.cons_append, trace, trace, ih]
    cases s.start rules stage ctx c with
    | mk started result =>
      cases result with
      | error fault => rfl
      | ok p =>
        simp only
        cases p.2.fault? with
        | some fault => rfl
        | none =>
          cases hfront : s.trace rules stage ctx front with
          | mk steps fault? => cases fault? <;> simp [Trace.andThen, Trace.after]

/-- Classes do what each does up to the first fault, and the rules hide issues from it. -/
theorem Strategies.trace_eq {s : Strategies} (hfilter : s.filter = IssueFilter.keepAll)
    (h : rules.Compiles) (stage : String) (ctx : LintContext) (classes : List LinterClass) :
    s.trace rules stage ctx classes =
      (((LinterClass.begun ctx classes).flatMap (s.activity stage ctx)).filter (Step.isShown rules),
        classes.findSome? (LinterClass.fault? ctx)) := by
  induction classes with
  | nil => rfl
  | cons c cs ih =>
    rw [LinterClass.begun_cons, List.flatMap_cons, List.filter_append, List.findSome?_cons, trace, start]
    have hfault : c.fault? ctx = _ := LinterClass.fault?.eq_1 ctx c
    have hactivity : s.activity stage ctx c = _ := activity.eq_1 s stage ctx c
    cases hvalid : c.validate with
    | error fault =>
      rw [hvalid] at hfault hactivity
      rw [hfault, hactivity]; rfl
    | ok p =>
      obtain ⟨name, declared⟩ := p
      rw [hvalid] at hfault hactivity
      simp only at hfault hactivity ⊢
      cases hscript : (c.call ctx).script with
      | error fault =>
        rw [hscript] at hfault hactivity
        rw [hfault, hactivity]
        simp [filter_isShown_events]
      | ok script =>
        rw [hscript] at hfault hactivity
        obtain ⟨hsteps, hend⟩ := Script.hideIssues_eq h ⟨c, name⟩ script
        simp only at hsteps hend hfault hactivity
        rw [hfault, hactivity, hfilter, List.filter_append, filter_isShown_events, ← hsteps]
        simp only [IssueFilter.keepAll, Opening.lazy, List.append_nil, hend, ih]
        cases script.fault? <;> simp

/-- What rules leave of the steps of a run delivers what they show. -/
theorem Session.deliveriesOf_filter (rules : IgnoreConfig) (steps : List Step) :
    deliveriesOf (steps.filter (Step.isShown rules)) =
      (deliveriesOf steps).filter fun d => rules.shows d.1 d.2 := by
  induction steps with
  | nil => rfl
  | cons step steps ih =>
    cases step with
    | event e => exact ih
    | issue producer i =>
      have hshown : Step.isShown rules (.issue producer i) = rules.shows producer.name i := rfl
      rw [deliveriesOf_issue, List.filter_cons, List.filter_cons, hshown]
      cases rules.shows producer.name i with
      | true => exact congrArg ((producer.name, i) :: ·) ih
      | false => exact ih

theorem Strategies.deliveriesOf_activity (s : Strategies) (rules : IgnoreConfig) (stage : String)
    (ctx : LintContext) (c : LinterClass) :
    Session.deliveriesOf ((s.activity stage ctx c).filter (Step.isShown rules)) =
      c.visible rules ctx := by
  unfold activity LinterClass.visible LinterClass.emitted
  cases hvalid : c.validate with
  | error fault => rfl
  | ok p =>
    obtain ⟨name, declared⟩ := p
    rw [LinterClass.declaredName_of_validate hvalid]
    cases (c.call ctx).script with
    | error fault => simp [filter_isShown_events]
    | ok script =>
      rw [Session.deliveriesOf_filter, Session.deliveriesOf_append, Session.deliveriesOf_events,
        List.nil_append, Script.deliveriesOf_steps, List.filter_map]
      rfl

/-- What classes deliver under rules: what each emits that is not hidden, up to the first fault. -/
theorem Strategies.deliveriesOf_trace {s : Strategies} (hfilter : s.filter = IssueFilter.keepAll)
    (h : rules.Compiles) (stage : String) (ctx : LintContext) (classes : List LinterClass) :
    Session.deliveriesOf (s.trace rules stage ctx classes).1 =
      (LinterClass.begun ctx classes).flatMap (LinterClass.visible rules ctx) := by
  rw [trace_eq hfilter h]
  induction LinterClass.begun ctx classes with
  | nil => rfl
  | cons c cs ih =>
    rw [List.flatMap_cons, List.flatMap_cons, List.filter_append, Session.deliveriesOf_append, ih,
      deliveriesOf_activity]

end Trace

/-! ## Classes that make no difference -/

namespace LinterClass

/-- Two classes that differ at most in how their linters report: they are the same, or the linter of
one reports in one go, when it is called, what that of the other reports on demand. -/
inductive ReportsAlike (ctx : LintContext) : LinterClass → LinterClass → Prop
  | same (c : LinterClass) : ReportsAlike ctx c c
  | atOnce {c c' : LinterClass} {events : List Event} {script : Script}
      (validate : c.validate = c'.validate)
      (listed : c.call ctx = { events, script := .ok (.ofIssues script.issues) })
      (demanded : c'.call ctx = .lazy script) (fine : script.fault? = none) : ReportsAlike ctx c c'

theorem issues_ofIssues (issues : List Issue) : (Script.ofIssues issues).issues = issues := by
  induction issues with
  | nil => rfl
  | cons i issues ih => exact congrArg (i :: ·) ih

theorem fault?_ofIssues (issues : List Issue) : (Script.ofIssues issues).fault? = none := by
  induction issues with
  | nil => rfl
  | cons i issues ih => exact ih

theorem ReportsAlike.eq {ctx : LintContext} {c c' : LinterClass} (h : ReportsAlike ctx c c')
    (rules : IgnoreConfig) : c.visible rules ctx = c'.visible rules ctx ∧ c.fault? ctx = c'.fault? ctx := by
  cases h with
  | same => exact ⟨rfl, rfl⟩
  | atOnce validate listed demanded fine =>
    unfold visible emitted fault?
    rw [validate, listed, demanded]
    cases hvalid : c'.validate with
    | error fault => exact ⟨rfl, rfl⟩
    | ok p =>
      obtain ⟨name, declared⟩ := p
      rw [declaredName_of_validate hvalid, declaredName_of_validate (validate.trans hvalid)]
      simp [Opening.lazy, issues_ofIssues, fault?_ofIssues, fine]

theorem reference_congr {ctx : LintContext} {classes classes' : List LinterClass}
    (h : List.Forall₂ (ReportsAlike ctx) classes classes') (rules : IgnoreConfig) :
    (begun ctx classes).flatMap (visible rules ctx) = (begun ctx classes').flatMap (visible rules ctx) ∧
      classes.findSome? (fault? ctx) = classes'.findSome? (fault? ctx) := by
  induction h with
  | nil => exact ⟨rfl, rfl⟩
  | cons hc _ ih =>
    obtain ⟨hvisible, hfault⟩ := hc.eq rules
    simp only [begun_cons, List.flatMap_cons, List.findSome?_cons, hvisible, hfault, ih.2, and_true]
    split
    · rfl
    · rw [ih.1]

end LinterClass

/-- A class that comes to a fault ends the trace, whatever classes come behind it. -/
theorem Strategies.trace_behind_fault {s : Strategies} (hfilter : s.filter = IssueFilter.keepAll)
    {rules : IgnoreConfig} (h : rules.Compiles) (stage : String) (ctx : LintContext) (c : LinterClass)
    (hc : (c.fault? ctx).isSome) (front behind : List LinterClass) :
    s.trace rules stage ctx (front ++ c :: behind) = s.trace rules stage ctx (front ++ [c]) := by
  have hend : (s.trace rules stage ctx [c]).2 = c.fault? ctx := by
    rw [trace_eq hfilter h]
    simp only [List.findSome?_cons, List.findSome?_nil]
    cases c.fault? ctx <;> rfl
  have hcut : s.trace rules stage ctx (c :: behind) = s.trace rules stage ctx [c] := by
    rw [← List.singleton_append, trace_append, Trace.andThen, hend]
    obtain ⟨fault, hfault⟩ := Option.isSome_iff_exists.1 hc
    rw [hfault]
  rw [trace_append, hcut, ← trace_append]

/-- Of a class that may not be used nothing counts but why. -/
theorem Strategies.trace_invalid (s : Strategies) (rules : IgnoreConfig) (stage : String)
    (ctx : LintContext) {c : LinterClass} {fault : Fault} (h : c.validate = .error fault) :
    s.trace rules stage ctx [c] = ([], some fault) := by
  rw [trace, start, h]; rfl

/-! ## Runs -/

namespace Pulls

/-- What the caller gets from pulls and finds in the orchestrator afterwards. -/
def outcome (p : Pulls) : List Pulled × Orchestrator :=
  (p.answers, p.state)

/-- All that can be seen of pulls. -/
def seen (p : Pulls) : List Event × List Pulled × Orchestrator :=
  (p.events, p.outcome)

end Pulls

/-- The strategies with a fixed choice of classes. -/
def Strategies.choosing (s : Strategies) (classes : List LinterClass) : Strategies :=
  { s with select := fun _ _ _ => .ok classes }

/-- What classes do depends on the filter and on whether there are notes, on no other strategy. -/
theorem Strategies.trace_congr {s t : Strategies} (hfilter : t.filter = s.filter)
    (hnotes : t.notes = s.notes) (rules : IgnoreConfig) (stage : String) (ctx : LintContext)
    (classes : List LinterClass) : t.trace rules stage ctx classes = s.trace rules stage ctx classes := by
  have hstart : ∀ c, t.start rules stage ctx c = s.start rules stage ctx c := by
    intro c
    unfold start note
    rw [hfilter, hnotes]
  induction classes with
  | nil => rfl
  | cons c cs ih => rw [trace, trace, hstart, ih]

/-- What classes do does not depend on how they were chosen. -/
theorem Strategies.trace_choosing (s : Strategies) (choice : List LinterClass) (rules : IgnoreConfig)
    (stage : String) (ctx : LintContext) (classes : List LinterClass) :
    (s.choosing choice).trace rules stage ctx classes = s.trace rules stage ctx classes :=
  trace_congr (s := s) (t := s.choosing choice) rfl rfl rules stage ctx classes

/-- A run that is drained has the trace of the classes chosen. -/
theorem Strategies.drain_eq {s : Strategies} {candidates : String → List LinterClass} {stage : String}
    {ctx : LintContext} {chosen : List LinterClass}
    (hselect : s.select stage ctx (candidates stage) = .ok chosen) (o : Orchestrator) :
    let t := s.trace o.ignores stage ctx chosen
    s.drain candidates o stage ctx = (t.1, t.2, o.reset.recordAll (Session.deliveriesOf t.1)) := by
  rw [drain, hselect]
  exact congrArg (fun o' => (_, _, o')) (Orchestrator.foldl_observe_eq o.reset _)

namespace Run

section Pulls

variable {s t : Strategies} {candidates : String → List LinterClass} {stage : String} {ctx : LintContext}
variable {chosen chosen' : List LinterClass} {o : Orchestrator}

/-- Pulls of a run that is started under the rules of the orchestrator take their part of the trace of
the classes chosen. -/
theorem pulls_waiting (hselect : s.select stage ctx (candidates stage) = .ok chosen) (n : Nat) :
    let t : Trace := s.trace o.ignores stage ctx chosen
    let p := (waiting stage ctx).pulls s candidates n o
    p.events = Session.eventsOf (t.taken n) ∧
      p.answers = Pulled.sequence t.2 ((Session.deliveriesOf t.1).map Prod.snd) n ∧
      p.state = (if n = 0 then o else o.reset).recordAll ((Session.deliveriesOf t.1).take n) := by
  have hfollow := pulls_follow s candidates n (waiting stage ctx) o
  have htrace : (waiting stage ctx).trace s candidates (fun _ => o.ignores) =
      s.trace o.ignores stage ctx chosen := by
    rw [Run.trace, hselect]
    exact s.traceUnder_const o.ignores stage ctx chosen
  rw [htrace] at hfollow
  obtain ⟨hevents, hanswers, hstate⟩ := hfollow
  refine ⟨hevents, ?_, ?_⟩
  · rw [hanswers, Trace.answers_eq, Session.issuesOf_eq]
  · rw [hstate, Orchestrator.foldl_observe_eq, Trace.deliveriesOf_taken]; rfl

/-- Of a choice of classes pulls show no more than its trace. -/
theorem seen_pulls_congr (hs : s.select stage ctx (candidates stage) = .ok chosen)
    (ht : t.select stage ctx (candidates stage) = .ok chosen')
    (htrace : t.trace o.ignores stage ctx chosen' = s.trace o.ignores stage ctx chosen) (n : Nat) :
    ((waiting stage ctx).pulls t candidates n o).seen =
      ((waiting stage ctx).pulls s candidates n o).seen := by
  obtain ⟨hevents, hanswers, hstate⟩ := pulls_waiting (o := o) hs n
  obtain ⟨hevents', hanswers', hstate'⟩ := pulls_waiting (o := o) ht n
  unfold Pulls.seen Pulls.outcome
  rw [hevents, hanswers, hstate, hevents', hanswers', hstate', htrace]

section Reference

variable (hfilter : s.filter = IssueFilter.keepAll) (hglobs : o.ignores.Compiles)
variable (hselect : s.select stage ctx (candidates stage) = .ok chosen)

include hfilter hglobs hselect

/-- The answers to pulls, what is collected in the end, and all that has happened by then. -/
theorem pulls_eq_reference (n : Nat) :
    let delivered := (LinterClass.begun ctx chosen).flatMap (LinterClass.visible o.ignores ctx)
    let p := (waiting stage ctx).pulls s candidates n o
    p.answers = Pulled.sequence (chosen.findSome? (LinterClass.fault? ctx)) (delivered.map Prod.snd) n ∧
      p.state = (if n = 0 then o else o.reset).recordAll (delivered.take n) ∧
      (delivered.length < n →
        p.events = Session.eventsOf ((LinterClass.begun ctx chosen).flatMap (s.activity stage ctx))) := by
  have htrace := s.trace_eq hfilter hglobs stage ctx chosen
  have hdelivered := s.deliveriesOf_trace hfilter hglobs stage ctx chosen
  obtain ⟨hevents, hanswers, hstate⟩ := pulls_waiting (o := o) hselect n
  refine ⟨?_, ?_, fun hn => ?_⟩
  · rw [hanswers, hdelivered, htrace]
  · rw [hstate, hdelivered]
  · rw [hevents, Trace.taken_of_deliveries_lt _ (by rw [hdelivered]; exact hn), htrace,
      eventsOf_filter_isShown]

theorem drain_eq_reference :
    let delivered := (LinterClass.begun ctx chosen).flatMap (LinterClass.visible o.ignores ctx)
    ∃ steps, Session.deliveriesOf steps = delivered ∧ s.drain candidates o stage ctx =
      (steps, chosen.findSome? (LinterClass.fault? ctx), o.reset.recordAll delivered) := by
  have hdelivered := s.deliveriesOf_trace hfilter hglobs stage ctx chosen
  have hfault : (s.trace o.ignores stage ctx chosen).2 = _ :=
    congrArg Prod.snd (s.trace_eq hfilter hglobs stage ctx chosen)
  refine ⟨(s.trace o.ignores stage ctx chosen).1, hdelivered, ?_⟩
  rw [Strategies.drain_eq hselect, hdelivered, hfault]

/-- What stands behind a class that comes to a fault makes no difference. -/
theorem seen_behind_fault {front behind : List LinterClass} {c : LinterClass}
    (hchosen : chosen = front ++ c :: behind) (hc : (c.fault? ctx).isSome) (behind' : List LinterClass)
    (n : Nat) : ((waiting stage ctx).pulls (s.choosing (front ++ c :: behind')) candidates n o).seen =
      ((waiting stage ctx).pulls s candidates n o).seen := by
  refine seen_pulls_congr hselect rfl ?_ n
  have hcut := s.trace_behind_fault hfilter hglobs stage ctx c hc front
  rw [s.trace_choosing, hchosen, hcut behind, hcut behind']

/-- Nor does what a class would do that may not be used. -/
theorem seen_invalid {front behind : List LinterClass} {c c' : LinterClass} {fault : Fault}
    (hchosen : chosen = front ++ c :: behind) (hc : c.validate = .error fault)
    (hc' : c'.validate = .error fault) (behind' : List LinterClass) (n : Nat) :
    ((waiting stage ctx).pulls (s.choosing (front ++ c' :: behind')) candidates n o).seen =
      ((waiting stage ctx).pulls s candidates n o).seen := by
  refine seen_pulls_congr hselect rfl ?_ n
  have hcut := fun (c : LinterClass) (hc : c.validate = .error fault) behind =>
    s.trace_behind_fault hfilter hglobs stage ctx c
      (by rw [LinterClass.fault?_of_validate hc]; rfl) front behind
  rw [s.trace_choosing, hchosen, hcut c hc, hcut c' hc', s.trace_append, s.trace_append,
    s.trace_invalid _ stage ctx hc, s.trace_invalid _ stage ctx hc']

/-- Nor does it make a difference to answers and to what is collected how linters report. -/
theorem outcome_alike (h : List.Forall₂ (LinterClass.ReportsAlike ctx) chosen chosen') (n : Nat) :
    ((waiting stage ctx).pulls (s.choosing chosen') candidates n o).outcome =
      ((waiting stage ctx).pulls s candidates n o).outcome := by
  obtain ⟨hdelivered, hfault⟩ := LinterClass.reference_congr h o.ignores
  obtain ⟨hanswers, hstate, -⟩ := pulls_eq_reference hfilter hglobs hselect n
  have hselect' : (s.choosing chosen').select stage ctx (candidates stage) = .ok chosen' := rfl
  have hfilter' : (s.choosing chosen').filter = IssueFilter.keepAll := hfilter
  obtain ⟨hanswers', hstate', -⟩ := pulls_eq_reference hfilter' hglobs hselect' n
  unfold Pulls.outcome
  rw [hanswers, hstate, hanswers', hstate', hdelivered, hfault]

end Reference

end Pulls

end Run

/-- A run that is pulled until it ends gives its reference, whatever the orchestrator held before: one
by one the issues that the chosen classes emit and the rules do not hide, up to the first class that
comes to a fault, then that fault or the end, then nothing more; just these issues are collected. A class
that may not be used comes to its fault before anything is done with it, no class behind a fault has any
effect, and it is all one whether a linter that does not fail reports at once or on demand. -/
theorem pulls_deliver_reference (s : Strategies) (registry : Registry) (o : Orchestrator)
    (stage : String) (ctx : LintContext) (chosen : List LinterClass)
    (hselect : s.select stage ctx (registry.forLabel stage) = .ok chosen)
    (hfilter : s.filter = IssueFilter.keepAll) (hglobs : o.ignores.Compiles) :
    let pulls := fun (s : Strategies) n => (Run.waiting stage ctx).pulls s registry.forLabel n o
    let begun := LinterClass.begun ctx chosen
    let delivered := begun.flatMap (LinterClass.visible o.ignores ctx)
    let fault? := chosen.findSome? (LinterClass.fault? ctx)
    (∀ n, (pulls s n).answers = Pulled.sequence fault? (delivered.map Prod.snd) n ∧
      (pulls s n).state = (if n = 0 then o else o.reset).recordAll (delivered.take n)) ∧
    (∀ n, delivered.length < n → (pulls s n).state.issues = delivered.map Prod.snd ∧
      (pulls s n).events = Session.eventsOf (begun.flatMap (s.activity stage ctx))) ∧
    (∃ steps, Session.deliveriesOf steps = delivered ∧
      s.drain registry.forLabel o stage ctx = (steps, fault?, o.reset.recordAll delivered)) ∧
    (∀ front c behind, chosen = front ++ c :: behind →
      (∀ fault, c.validate = .error fault → (∃ message, fault = .configuration c.label message) ∧
        c.fault? ctx = some fault ∧ ∀ c', c'.validate = .error fault → ∀ behind' n,
          (pulls (s.choosing (front ++ c' :: behind')) n).seen = (pulls s n).seen) ∧
      ((c.fault? ctx).isSome → ∀ behind' n,
        (pulls (s.choosing (front ++ c :: behind')) n).seen = (pulls s n).seen)) ∧
    (∀ chosen', List.Forall₂ (LinterClass.ReportsAlike ctx) chosen chosen' → ∀ n,
      (pulls (s.choosing chosen') n).outcome = (pulls s n).outcome) := by
  intro pulls begun delivered fault?
  have hpulls := Run.pulls_eq_reference hfilter hglobs hselect
  refine ⟨fun n => ⟨(hpulls n).1, (hpulls n).2.1⟩, fun n hn => ⟨?_, (hpulls n).2.2 hn⟩,
    Run.drain_eq_reference hfilter hglobs hselect, ?_,
    fun chosen' h n => Run.outcome_alike hfilter hglobs hselect h n⟩
  · have hstate : (pulls s n).state = _ := (hpulls n).2.1
    rw [hstate, if_neg (Nat.ne_of_gt (Nat.zero_lt_of_lt hn)), List.take_of_length_le (Nat.le_of_lt hn),
      Orchestrator.issues_recordAll]
    rfl
  · intro front c behind hchosen
    refine ⟨fun fault hc => ⟨c.validate_eq_error hc, c.fault?_of_validate hc, ?_⟩, ?_⟩
    · intro c' hc' behind' n
      exact Run.seen_invalid hfilter hglobs hselect hchosen hc hc' behind' n
    · intro hc behind' n
      exact Run.seen_behind_fault hfilter hglobs hselect hchosen hc behind' n

/-- Of two issues of the first linter a rule hides one; the second linter raises a text after its first
issue, so that the third never runs. Nothing is left of the issue that was collected before. -/
theorem pulls_deliver_until_text_raised :
    let linter := fun (key : String) (script : Script) =>
      ({ own := { key, linterName := some (.text key), stage := some (.text "pre"),
                  run := .method fun _ => .lazy script } } : LinterClass)
    let issue := fun (id file : String) => (⟨id, "", .warning, file, ""⟩ : Issue)
    let first := linter "first" (.issue (issue "A" "x.md") (.issue (issue "A" "y.py") .done))
    let second := linter "second" (.issue (issue "B" "z") (.fail (.text "stop")))
    let third := linter "third" (.issue (issue "C" "") .done)
    let registry : Registry := { pre := [first, second, third] }
    let before : Orchestrator :=
      { ignores := .ofRules [⟨"first", "A", some "*.md"⟩], issues := [issue "old" ""] }
    let p := (Run.waiting "pre" default).pulls {} registry.forLabel 4 before
    p.answers = [.issue (issue "A" "y.py"), .issue (issue "B" "z"), .faulted (.text "stop"), .finished] ∧
      p.state.issues = [issue "A" "y.py", issue "B" "z"] := by
  intro linter issue first second third registry before p
  have h := pulls_deliver_reference {} registry before "pre" default [first, second, third] rfl rfl
    (by decide)
  have hdelivered : (LinterClass.begun default [first, second, third]).flatMap
      (LinterClass.visible before.ignores default) =
        [("first", issue "A" "y.py"), ("second", issue "B" "z")] := by decide +kernel
  have hfault : [first, second, third].findSome? (LinterClass.fault? default) = some (.text "stop") := by
    decide +kernel
  obtain ⟨hall, hend, -⟩ := h
  rw [hdelivered] at hall hend
  rw [hfault] at hall
  exact ⟨(hall 4).1, (hend 4 (by decide)).1⟩

end LintEngine
