/-
A run looks no further than it has to. With the default filter and linters that report on demand, a run
that has delivered an issue stands right behind the emission of that issue (`Run.Stands`): the linters
before have ended, the one at work has done nothing since, and none behind it has been started. One pull
that delivers takes a run from such a place to the next one (`Stands.pull`), so any number of them does
(`pulls_find`). Main statement: `pulls_look_no_further`.
-/
import LintEngine.Proofs.Run.Isolation
import LintEngine.Proofs.Run.Reference

namespace LintEngine

/-! ## Working off a script -/

namespace Script

/-- Working off steps leads from one script of a linter to another. -/
inductive Passes (producer : Producer) : Script → List Step → Script → Prop
  | here (script : Script) : Passes producer script [] script
  | event {e : Event} {rest left : Script} {steps : List Step} (later : Passes producer rest steps left) :
      Passes producer (.event e rest) (.event e :: steps) left
  | issue {i : Issue} {rest left : Script} {steps : List Step} (later : Passes producer rest steps left) :
      Passes producer (.issue i rest) (.issue producer i :: steps) left

namespace Passes

variable {producer : Producer} {script between left : Script} {steps more : List Step}

theorem trans (h : Passes producer script steps between) (h' : Passes producer between more left) :
    Passes producer script (steps ++ more) left := by
  induction h with
  | here => exact h'
  | event _ ih => exact .event (ih h')
  | issue _ ih => exact .issue (ih h')

theorem steps_eq (h : Passes producer script steps left) :
    script.steps producer = steps ++ left.steps producer := by
  induction h with
  | here => rfl
  | event _ ih => exact congrArg (_ :: ·) ih
  | issue _ ih => exact congrArg (_ :: ·) ih

theorem fault?_eq (h : Passes producer script steps left) : script.fault? = left.fault? := by
  induction h with
  | here => rfl
  | event _ ih => exact ih
  | issue _ ih => exact ih

end Passes

end Script

/-- Rules let none of the issues among steps be seen. -/
def IgnoreConfig.Silences (rules : IgnoreConfig) (steps : List Step) : Prop :=
  Session.issuesOf (steps.filter (Step.isShown rules)) = []

theorem IgnoreConfig.silences_events (rules : IgnoreConfig) (events : List Event) :
    rules.Silences (events.map .event) := by
  unfold Silences
  rw [filter_isShown_events, Session.issuesOf_events]

theorem IgnoreConfig.Silences.append {rules : IgnoreConfig} {steps more : List Step}
    (h : rules.Silences steps) (h' : rules.Silences more) : rules.Silences (steps ++ more) := by
  unfold Silences at *
  rw [List.filter_append, Session.issuesOf_append, h, h']; rfl

section Next

variable {rules : IgnoreConfig}

/-- The search for the next issue that rules show works off what is in front of it, and stops there. -/
theorem Script.next_hideIssues (h : rules.Compiles) (producer : Producer) (script : Script) :
    ∃ passed, rules.Silences passed ∧
      Session.eventsOf passed = (script.hideIssues (rules.hides producer.name)).next.1 ∧
      match (script.hideIssues (rules.hides producer.name)).next.2 with
      | .issue i left => ∃ rest, script.Passes producer passed (.issue i rest) ∧
          rules.shows producer.name i = true ∧ left = rest.hideIssues (rules.hides producer.name)
      | .done => script.Passes producer passed .done
      | .failed fault => script.Passes producer passed (.fail fault) := by
  induction script with
  | done => exact ⟨[], rfl, rfl, .here _⟩
  | fail fault => exact ⟨[], rfl, rfl, .here _⟩
  | event e rest ih =>
    obtain ⟨passed, hsilent, hevents, hend⟩ := ih
    refine ⟨.event e :: passed, hsilent, congrArg (e :: ·) hevents, ?_⟩
    rw [hideIssues, next]
    simp only
    split at hend
    · obtain ⟨left, hpasses, hshown, hleft⟩ := hend
      exact ⟨left, .event hpasses, hshown, hleft⟩
    · exact .event hend
    · exact .event hend
  | issue i rest ih =>
    obtain ⟨answer, hanswer, -⟩ := IgnoreConfig.hides_eq_ok h producer.name i
    have hshown : rules.shows producer.name i = !answer := IgnoreConfig.shows_of_hides hanswer
    rw [hideIssues, hanswer]
    cases answer with
    | false => exact ⟨[], rfl, rfl, rest, .here _, hshown, rfl⟩
    | true =>
      obtain ⟨passed, hsilent, hevents, hend⟩ := ih
      have hhidden : ¬Step.isShown rules (.issue producer i) = true := by
        show ¬rules.shows producer.name i = true
        rw [hshown]; decide
      refine ⟨.issue producer i :: passed, ?_, hevents, ?_⟩
      · unfold IgnoreConfig.Silences
        rw [List.filter_cons_of_neg hhidden]
        exact hsilent
      · simp only
        split at hend
        · obtain ⟨left, hpasses, hkept, hleft⟩ := hend
          exact ⟨left, .issue hpasses, hkept, hleft⟩
        · exact .issue hend
        · exact .issue hend

end Next

/-! ## Where a run stands -/

namespace LinterClass

/-- A class that may be used and whose linter does nothing but on demand. -/
def Streams (ctx : LintContext) (c : LinterClass) : Prop :=
  (∃ p, c.validate = .ok p) ∧ ∃ script, c.call ctx = .lazy script

theorem fault?_eq_of_call {ctx : LintContext} {c : LinterClass} {p : String × Stage} {script : Script}
    (hvalid : c.validate = .ok p) (hcall : c.call ctx = .lazy script) : c.fault? ctx = script.fault? := by
  unfold fault?
  rw [hvalid, hcall]; rfl

/-- Classes that come to no fault are all gone through. -/
theorem begun_append {ctx : LintContext} {front : List LinterClass}
    (h : ∀ c ∈ front, c.fault? ctx = none) (classes : List LinterClass) :
    begun ctx (front ++ classes) = front ++ begun ctx classes := by
  induction front with
  | nil => rfl
  | cons c front ih =>
    obtain ⟨hc, hfront⟩ := List.forall_mem_cons.1 h
    rw [List.cons_append, begun_cons, hc, ih hfront]; rfl

end LinterClass

/-- Under the default filter a linter that streams is started on its script, less what rules hide. -/
theorem Strategies.start_of_streams {s : Strategies} (hfilter : s.filter = IssueFilter.keepAll)
    (rules : IgnoreConfig) (stage : String) {ctx : LintContext} {c : LinterClass} {p : String × Stage}
    {script : Script} (hvalid : c.validate = .ok p) (hcall : c.call ctx = .lazy script) :
    s.start rules stage ctx c = (s.opened stage ctx c,
      .ok (⟨c, c.declaredName⟩, script.hideIssues (rules.hides c.declaredName))) := by
  rw [start, hvalid, opened, LinterClass.declaredName_of_validate hvalid]
  simp [hcall, hfilter, Opening.lazy, IssueFilter.keepAll]

namespace Run

/-- A run in the middle of its classes, with just these steps behind it, first those before the linter at
work does anything, then its own: the classes in front of it have ended, all of their steps taken; it has
taken some steps itself, and what is left of its script is still to be done; the classes behind it are
still to be started. -/
inductive Stands (s : Strategies) (rules : IgnoreConfig) (stage : String) (ctx : LintContext)
    (chosen : List LinterClass) : List Step → List Step → Run → Prop
  | intro {front behind : List LinterClass} {c : LinterClass} {p : String × Stage}
      {script left : Script} {steps : List Step}
      (split : chosen = front ++ c :: behind) (ended : ∀ d ∈ front, d.fault? ctx = none)
      (valid : c.validate = .ok p) (call : c.call ctx = .lazy script)
      (passes : script.Passes ⟨c, c.declaredName⟩ steps left) :
      Stands s rules stage ctx chosen
        (front.flatMap (s.activity stage ctx) ++ (s.opened stage ctx c).map .event) steps
        (.working stage ctx ⟨c, c.declaredName⟩ (left.hideIssues (rules.hides c.declaredName)) behind)

/-- What a search for an issue has to show for itself: it started from a place with some steps behind it,
passed over others, of which just the earlier issues were to be seen, and stopped where the issue is the
last that the linter at work has done. -/
structure Finds (s : Strategies) (rules : IgnoreConfig) (stage : String) (ctx : LintContext)
    (chosen : List LinterClass) (steps : List Step) (events : List Event) (earlier : List Issue)
    (i : Issue) (r : Run) (passed : List Step) (producer : Producer) : Prop where
  stands : ∃ before own, before ++ own = steps ++ passed ∧
    Stands s rules stage ctx chosen before (own ++ [.issue producer i]) r
  earlier : Session.issuesOf (passed.filter (Step.isShown rules)) = earlier
  events : Session.eventsOf passed = events
  shown : rules.shows producer.name i = true

section Stands

variable {s : Strategies} {rules : IgnoreConfig} {stage : String} {ctx : LintContext}
variable {chosen : List LinterClass} {o : Orchestrator} {steps before own : List Step} {r : Run}

/-- The steps that a run has behind it are the first of all those that its linters take. -/
theorem Stands.initial (h : Stands s rules stage ctx chosen before own r) :
    before ++ own <+: (LinterClass.begun ctx chosen).flatMap (s.activity stage ctx) := by
  obtain @⟨front, behind, c, p, script, left, _, split, ended, valid, call, passes⟩ := h
  have hactivity : s.activity stage ctx c = (s.opened stage ctx c).map .event ++
      (own ++ left.steps ⟨c, c.declaredName⟩) := by
    rw [s.activity_eq stage valid (by rw [call]; rfl), passes.steps_eq]
  rw [split, LinterClass.begun_append ended, LinterClass.begun_cons, List.flatMap_append, List.flatMap_cons,
    hactivity]
  simp only [List.append_assoc, List.prefix_append_right_inj]
  exact List.prefix_append ..

/-- A search that starts from where a run stands finds what is next in the script of the linter at work,
or else what is next behind it, provided that the search among the classes there finds what is next. -/
theorem Stands.workOff_finds (h : rules.Compiles) {producer : Producer} {script : Script}
    {behind : List LinterClass}
    (hstands : Stands s rules stage ctx chosen before own (.working stage ctx producer script behind))
    (hlater : ∀ front, chosen = front ++ behind → (∀ d ∈ front, d.fault? ctx = none) →
      ∀ events producer' i script' rest,
        startNext s rules stage ctx behind = (events, .delivered producer' i script' rest) →
        ∃ passed, Finds s rules stage ctx chosen (front.flatMap (s.activity stage ctx)) events [] i
          (.working stage ctx producer' script' rest) passed producer')
    {events : List Event} {producer' : Producer} {i : Issue} {script' : Script} {rest : List LinterClass}
    (hnext : workOff producer script behind (fun _ => startNext s rules stage ctx behind) =
      (events, .delivered producer' i script' rest)) :
    ∃ passed, Finds s rules stage ctx chosen (before ++ own) events [] i
      (.working stage ctx producer' script' rest) passed producer' := by
  obtain @⟨front, _, c, p, full, left, _, split, ended, valid, call, passes⟩ := hstands
  obtain ⟨passed, hsilent, hevents, hend⟩ := left.next_hideIssues h ⟨c, c.declaredName⟩
  simp only at hevents hend
  unfold workOff at hnext
  cases hleft : (left.hideIssues (rules.hides c.declaredName)).next with
  | mk before head =>
    rw [hleft] at hnext hevents hend
    cases head with
    | failed fault => cases hnext
    | issue j shownLeft =>
      obtain ⟨later, hpasses, hshown, rfl⟩ := hend
      cases hnext
      refine ⟨passed, ⟨_, own ++ passed, (List.append_assoc ..).symm, ?_⟩, hsilent, hevents, hshown⟩
      rw [List.append_assoc]
      exact .intro split ended valid call (passes.trans (hpasses.trans (.issue (.here later))))
    | done =>
      -- the linter has nothing more to show: it ends, and the search goes on behind it
      have hpasses := passes.trans hend
      have hactivity : s.activity stage ctx c =
          (s.opened stage ctx c).map .event ++ (own ++ passed) := by
        rw [s.activity_eq stage valid (by rw [call]; rfl), hpasses.steps_eq]
        simp [Script.steps]
      have hfine : c.fault? ctx = none := (c.fault?_eq_of_call valid call).trans hpasses.fault?_eq
      have hended : ∀ d ∈ front ++ [c], d.fault? ctx = none := by
        intro d hd
        rcases List.mem_append.1 hd with hd | hd
        · exact ended d hd
        · cases List.mem_singleton.1 hd; exact hfine
      cases hsearch : startNext s rules stage ctx behind with
      | mk more a =>
        rw [hsearch] at hnext
        cases hnext
        obtain ⟨passed', ⟨before', own', hsteps, hstands⟩, hsilent', hevents', hshown⟩ :=
          hlater (front ++ [c]) (by simpa using split) hended _ _ _ _ _ hsearch
        rw [List.flatMap_append, List.flatMap_singleton, hactivity] at hsteps
        refine ⟨passed ++ passed', ⟨before', own', ?_, hstands⟩, hsilent.append hsilent', ?_, hshown⟩
        · rw [hsteps]
          simp only [List.append_assoc]
        · rw [Session.eventsOf_append, hevents, hevents']

/-- The search among the classes still to come goes on where those in front have ended. -/
theorem startNext_finds (hfilter : s.filter = IssueFilter.keepAll) (h : rules.Compiles)
    {classes : List LinterClass} (hstream : ∀ c ∈ classes, c.Streams ctx) (front : List LinterClass)
    (split : chosen = front ++ classes) (ended : ∀ d ∈ front, d.fault? ctx = none) (events : List Event)
    (producer : Producer) (i : Issue) (script : Script) (rest : List LinterClass)
    (hnext : startNext s rules stage ctx classes = (events, .delivered producer i script rest)) :
    ∃ passed, Finds s rules stage ctx chosen (front.flatMap (s.activity stage ctx)) events [] i
      (.working stage ctx producer script rest) passed producer := by
  induction classes generalizing front events producer i script rest with
  | nil => cases hnext
  | cons c cs ih =>
    obtain ⟨⟨⟨p, hvalid⟩, full, hcall⟩, hstreams⟩ := List.forall_mem_cons.1 hstream
    rw [startNext, Strategies.start_of_streams hfilter rules stage hvalid hcall] at hnext
    have hstands : Stands s rules stage ctx chosen _ _ _ :=
      .intro split ended hvalid hcall (.here full)
    simp only at hnext
    cases hsearch : workOff ⟨c, c.declaredName⟩ (full.hideIssues (rules.hides c.declaredName)) cs
        fun _ => startNext s rules stage ctx cs with
    | mk more a =>
      rw [hsearch] at hnext
      cases hnext
      obtain ⟨passed, ⟨before, own, hsteps, hfound⟩, hsilent, hevents, hshown⟩ :=
        hstands.workOff_finds h (ih hstreams) hsearch
      refine ⟨(s.opened stage ctx c).map Step.event ++ passed, ⟨before, own, ?_, hfound⟩,
        (rules.silences_events (s.opened stage ctx c)).append hsilent, ?_, hshown⟩
      · rw [hsteps, List.append_nil, List.append_assoc]
      · rw [Session.eventsOf_append, Session.eventsOf_events, hevents]

/-! ## Pulls that deliver -/

section Pull

variable {candidates : String → List LinterClass}

theorem eq_delivered_of_settle {a : Advance} {i : Issue} (h : (settle o stage ctx a).1 = .issue i) :
    ∃ producer script rest, a = .delivered producer i script rest := by
  cases a with
  | finished => cases h
  | faulted fault => cases h
  | delivered producer j script rest =>
    cases h
    exact ⟨producer, script, rest, rfl⟩

/-- A pull that delivers takes a run from one place to the next. -/
theorem Stands.pull (hfilter : s.filter = IssueFilter.keepAll) (h : rules.Compiles)
    (hstream : ∀ c ∈ chosen, c.Streams ctx) (hrules : o.ignores = rules)
    (hstands : Stands s rules stage ctx chosen before own r) {i : Issue}
    (hdelivers : (r.pull s candidates o).2.1 = .issue i) :
    ∃ passed producer, Finds s rules stage ctx chosen (before ++ own) (r.pull s candidates o).1 [] i
      (r.pull s candidates o).2.2.1 passed producer := by
  have hstands' := hstands
  subst hrules
  obtain @⟨front, behind, c, p, full, left, _, split, ended, valid, call, passes⟩ := hstands
  have hbehind : ∀ d ∈ behind, d.Streams ctx := by
    intro d hd
    rw [split] at hstream
    exact hstream d (List.mem_append_right _ (List.mem_cons_of_mem _ hd))
  rw [Run.pull] at hdelivers ⊢
  cases hsearch : workOff ⟨c, c.declaredName⟩ (left.hideIssues (o.ignores.hides c.declaredName)) behind
      fun _ => startNext s o.ignores stage ctx behind with
  | mk events a =>
    rw [hsearch] at hdelivers
    obtain ⟨producer, script, rest, rfl⟩ := eq_delivered_of_settle hdelivers
    obtain ⟨passed, hfinds⟩ := hstands'.workOff_finds h (startNext_finds hfilter h hbehind) hsearch
    exact ⟨passed, producer, hfinds⟩

/-- The first pull of a run takes it to the first place from which an issue has been delivered. -/
theorem pull_waiting_finds (hfilter : s.filter = IssueFilter.keepAll) (h : rules.Compiles)
    (hstream : ∀ c ∈ chosen, c.Streams ctx) (hrules : o.ignores = rules)
    (hselect : s.select stage ctx (candidates stage) = .ok chosen) {i : Issue}
    (hdelivers : ((waiting stage ctx).pull s candidates o).2.1 = .issue i) :
    ∃ passed producer, Finds s rules stage ctx chosen [] ((waiting stage ctx).pull s candidates o).1 [] i
      ((waiting stage ctx).pull s candidates o).2.2.1 passed producer := by
  subst hrules
  simp only [Run.pull, hselect] at hdelivers ⊢
  have hreset : o.reset.ignores = o.ignores := rfl
  rw [hreset] at hdelivers ⊢
  cases hsearch : startNext s o.ignores stage ctx chosen with
  | mk events a =>
    rw [hsearch] at hdelivers
    obtain ⟨producer, script, rest, rfl⟩ := eq_delivered_of_settle hdelivers
    obtain ⟨passed, hfinds⟩ := startNext_finds hfilter h hstream [] rfl (List.forall_mem_nil _) _ _ _ _ _
      hsearch
    exact ⟨passed, producer, hfinds⟩

theorem Finds.trans {events events' : List Event} {earlier later : List Issue} {i j : Issue} {r r' : Run}
    {passed passed' : List Step} {producer producer' : Producer}
    (h : Finds s rules stage ctx chosen steps events earlier i r passed producer)
    (h' : Finds s rules stage ctx chosen (steps ++ (passed ++ [.issue producer i])) events' later j r'
      passed' producer') :
    Finds s rules stage ctx chosen steps (events ++ events') (earlier ++ i :: later) j r'
      (passed ++ .issue producer i :: passed') producer' where
  stands := by simpa only [List.append_assoc, List.singleton_append] using h'.stands
  earlier := by
    have hshown : Step.isShown rules (.issue producer i) = true := h.shown
    rw [List.filter_append, List.filter_cons_of_pos hshown, Session.issuesOf_append, h.earlier,
      ← h'.earlier]
    rfl
  events := by rw [Session.eventsOf_append, h.events, ← h'.events]; rfl
  shown := h'.shown

theorem length_answers (s : Strategies) (candidates : String → List LinterClass) (n : Nat) (r : Run)
    (o : Orchestrator) : (r.pulls s candidates n o).answers.length = n := by
  induction n generalizing r o with
  | zero => rfl
  | succ n ih => exact congrArg (· + 1) (ih ..)

/-- Pulls in a row that all deliver take a run right behind the issue that the last of them delivers. -/
theorem pulls_find (hfilter : s.filter = IssueFilter.keepAll) (h : rules.Compiles)
    (hstream : ∀ c ∈ chosen, c.Streams ctx) (hrules : o.ignores = rules)
    (hfirst : ∀ i, (r.pull s candidates o).2.1 = .issue i →
      ∃ passed producer, Finds s rules stage ctx chosen steps (r.pull s candidates o).1 [] i
        (r.pull s candidates o).2.2.1 passed producer)
    {n : Nat} {issues : List Issue} {last : Issue}
    (hanswers : (r.pulls s candidates n o).answers = (issues ++ [last]).map .issue) :
    ∃ passed producer, Finds s rules stage ctx chosen steps (r.pulls s candidates n o).events issues last
      (r.pulls s candidates n o).run passed producer := by
  induction issues generalizing n r o steps with
  | nil =>
    cases n with
    | zero => cases hanswers
    | succ n =>
      obtain ⟨hdelivers, hnone⟩ := List.cons.inj hanswers
      obtain ⟨passed, producer, hfinds⟩ := hfirst last hdelivers
      have hzero : n = 0 := by
        rw [← length_answers s candidates n (r.pull s candidates o).2.2.1 (r.pull s candidates o).2.2.2]
        exact List.length_eq_zero_iff.2 hnone
      subst hzero
      refine ⟨passed, producer, hfinds.stands, hfinds.earlier, ?_, hfinds.shown⟩
      exact hfinds.events.trans (List.append_nil _).symm
  | cons i issues ih =>
    cases n with
    | zero => cases hanswers
    | succ n =>
      obtain ⟨hdelivers, hlater⟩ := List.cons.inj hanswers
      obtain ⟨passed, producer, hfinds⟩ := hfirst i hdelivers
      -- the first pull comes to a place, and the others go on from there
      have hrules' : (r.pull s candidates o).2.2.2.ignores = rules := by rw [ignores_pull, hrules]
      obtain ⟨before, own, hsteps, hstands⟩ := hfinds.stands
      have hplace : before ++ (own ++ [.issue producer i]) = steps ++ (passed ++ [.issue producer i]) := by
        rw [← List.append_assoc, hsteps, List.append_assoc]
      obtain ⟨passed', producer', hfinds'⟩ :=
        ih hrules' (fun j => hstands.pull hfilter h hstream hrules') hlater
      rw [hplace] at hfinds'
      exact ⟨_, producer', hfinds.trans hfinds'⟩

end Pull

end Stands

end Run

/-! ## Part of a drained run -/

/-- What pulls take off a trace is its beginning. -/
theorem Trace.taken_initial (t : Trace) (n : Nat) : t.taken n <+: t.1 := by
  induction n generalizing t with
  | zero => exact List.nil_prefix
  | succ n ih =>
    obtain ⟨events, ⟨-, hpull⟩ | ⟨producer, i, rest, hsteps, hpull⟩⟩ := t.pull_cases
    · have hall : t.taken (n + 1) = t.1 := by rw [taken, hpull, taken_empty, List.append_nil]
      exact ⟨[], (List.append_nil _).trans hall⟩
    · have hrest : taken (rest, t.2) n <+: rest := ih (rest, t.2)
      rw [taken, hpull, hsteps]
      simpa using hrest

/-- Pulls of a run have done the beginning of what draining it does. -/
theorem Run.pulls_initial {s : Strategies} {candidates : String → List LinterClass} {stage : String}
    {ctx : LintContext} {chosen : List LinterClass}
    (hselect : s.select stage ctx (candidates stage) = .ok chosen) (o : Orchestrator) (n : Nat) :
    let drained := s.drain candidates o stage ctx
    let p := (Run.waiting stage ctx).pulls s candidates n o
    ∃ steps, steps <+: drained.1 ∧ p.events = Session.eventsOf steps ∧
      Session.issuesOf steps = (Session.issuesOf drained.1).take n := by
  intro drained p
  have hdrained : drained = _ := s.drain_eq hselect o
  obtain ⟨hevents, -⟩ := pulls_waiting (o := o) hselect n
  refine ⟨_, ?_, hevents, ?_⟩
  · rw [hdrained]
    exact Trace.taken_initial _ n
  · rw [Session.issuesOf_eq, Trace.deliveriesOf_taken, List.map_take, ← Session.issuesOf_eq, hdrained]

/-! ## Runs that are left alone -/

namespace Session

variable {s : Session} {run worker : String}

/-- Pulling a closed run does nothing. -/
theorem step_pull_closed (hrun : s.run run = (worker, .closed)) :
    (s.step (.pull run)).2 = ([], .pulled .finished) ∧
      ∀ w, (s.step (.pull run)).1.worker w = s.worker w := by
  refine ⟨?_, fun w => ?_⟩
  · rw [step, hrun]; rfl
  · have hstate : s.stateAfter w (.pull run) = (s.worker w).state := by
      unfold stateAfter
      simp only
      rw [hrun]
      exact ite_self _
    rw [worker_step, hstate]

/-- A closed run starts nothing more and stays closed. -/
theorem closed_stays (hrun : s.run run = (worker, .closed)) (commands : List Command)
    (hspared : ∀ c ∈ commands, c.spares run = true) :
    s.starts run commands = [] ∧ (s.after commands).run run = (worker, .closed) := by
  induction commands generalizing s with
  | nil => exact ⟨rfl, hrun⟩
  | cons c cs ih =>
    obtain ⟨hc, hlater⟩ := List.forall_mem_cons.1 hspared
    have hstep : s.startsOn run c = [] ∧ (s.step c).1.run run = (worker, .closed) := by
      cases hpull : c.pulls run with
      | false => exact ⟨s.startsOn_other hpull, (run_step hc hpull).trans hrun⟩
      | true =>
        cases Command.eq_pull_of_pulls hpull
        exact ⟨startsOn_pull hrun, (step_pull hrun).2⟩
    obtain ⟨hstarts, hend⟩ := ih hstep.2 hlater
    refine ⟨?_, hend⟩
    rw [starts, hstep.1, hstarts]; rfl

theorem run_close {r : Run} (hrun : s.run run = (worker, r)) :
    (s.step (.close run)).1.run run = (worker, .closed) := by
  rw [step, hrun]
  exact (run_insert ..).trans (if_pos rfl)

end Session

/-- A run looks no further than it has to. When pulls have all delivered, the linters stand right behind
the emission of the issue delivered last: those in front of its linter have ended, that linter has done
nothing since, none behind it has been started, and whatever else has been emitted is what the rules hide.
However many pulls there are, they have delivered and done the beginning of what draining the run
delivers and does; and a run that is closed after them starts no linter and does nothing more, whatever
commands follow. -/
theorem pulls_look_no_further (s : Strategies) (registry : Registry) (o : Orchestrator) (stage : String)
    (ctx : LintContext) (chosen : List LinterClass)
    (hselect : s.select stage ctx (registry.forLabel stage) = .ok chosen)
    (hfilter : s.filter = IssueFilter.keepAll) (hglobs : o.ignores.Compiles)
    (hstream : ∀ c ∈ chosen, c.Streams ctx) :
    let pulls := fun n => (Run.waiting stage ctx).pulls s registry.forLabel n o
    let drained := s.drain registry.forLabel o stage ctx
    let activities := (LinterClass.begun ctx chosen).flatMap (s.activity stage ctx)
    (∀ n issues last, (pulls n).answers = (issues ++ [last]).map .issue →
      ∃ before own producer, let advanced := before ++ (own ++ [.issue producer last])
        Run.Stands s o.ignores stage ctx chosen before (own ++ [.issue producer last]) (pulls n).run ∧
        (pulls n).events = Session.eventsOf advanced ∧
        Session.issuesOf (advanced.filter (Step.isShown o.ignores)) = issues ++ [last] ∧
        (∀ emitter i, .issue emitter i ∈ advanced → Step.isShown o.ignores (.issue emitter i) = false →
          o.ignores.hides emitter.name i = .ok true) ∧
        advanced <+: activities) ∧
    drained.1 = activities.filter (Step.isShown o.ignores) ∧
    (∀ n, (pulls n).answers = Pulled.sequence drained.2.1 (Session.issuesOf drained.1) n ∧
      ∃ steps, steps <+: drained.1 ∧ (pulls n).events = Session.eventsOf steps ∧
        Session.issuesOf steps = (Session.issuesOf drained.1).take n) ∧
    (∀ n (t : Session) name worker, t.run name = (worker, (pulls n).run) →
      let left := t.step (.close name)
      left.2 = ([], .nothing) ∧ (∀ w, left.1.worker w = t.worker w) ∧
      ∀ commands : List Command, (∀ c ∈ commands, c.spares name = true) →
        let later := left.1.after commands
        left.1.starts name commands = [] ∧ (later.step (.pull name)).2 = ([], .pulled .finished) ∧
          ∀ w, (later.step (.pull name)).1.worker w = later.worker w) := by
  intro pulls drained activities
  refine ⟨?_, ?_, ?_, ?_⟩
  · intro n issues last hanswers
    obtain ⟨passed, producer, ⟨before, own, rfl, hstands⟩, hearlier, hevents, hshown⟩ :=
      Run.pulls_find hfilter hglobs hstream rfl
        (fun i => Run.pull_waiting_finds hfilter hglobs hstream rfl hselect) hanswers
    refine ⟨before, own, producer, hstands, ?_, ?_, ?_, hstands.initial⟩
    · rw [← List.append_assoc, Session.eventsOf_append, hevents]
      exact (List.append_nil _).symm
    · have hlast : Step.isShown o.ignores (.issue producer last) = true := hshown
      rw [← List.append_assoc, List.filter_append, List.filter_cons_of_pos hlast, Session.issuesOf_append, hearlier]; rfl
    · intro emitter i _ hhidden
      obtain ⟨answer, hanswer, -⟩ := IgnoreConfig.hides_eq_ok hglobs emitter.name i
      have hshows : (!answer) = false := (IgnoreConfig.shows_of_hides hanswer).symm.trans hhidden
      rw [hanswer, ← Bool.not_not answer, hshows]; rfl
  · have hdrained : drained = _ := s.drain_eq hselect o
    rw [hdrained, s.trace_eq hfilter hglobs stage ctx chosen]
  · intro n
    exact ⟨(Run.pulls_eq_drain s registry.forLabel o stage ctx n).1, Run.pulls_initial hselect o n⟩
  · intro n t name worker hrun left
    refine ⟨rfl, fun _ => rfl, ?_⟩
    intro commands hspared later
    obtain ⟨hstarts, hclosed⟩ := Session.closed_stays (Session.run_close hrun) commands hspared
    exact ⟨hstarts, Session.step_pull_closed hclosed⟩

/-- A linter without any issue to be seen, one with a hidden issue in front of a visible one, and a third.
One pull works off the first two and stops right behind the visible issue: what the second does
afterwards and all of the third are still to come. -/
theorem pulls_look_no_further_behind_hidden :
    let linter := fun (key : String) (script : Script) =>
      ({ own := { key, linterName := some (.text key), stage := some (.text "pre"),
                  run := .method fun _ => .lazy script } } : LinterClass)
    let issue := fun (id file : String) => (⟨id, "", .warning, file, ""⟩ : Issue)
    let first := linter "first" (.issue (issue "A" "x.md") (.event (.ended "first") .done))
    let second := linter "second" (.issue (issue "B" "x.md") (.event (.emitted "second" 1)
      (.issue (issue "B" "y.py") (.event (.ended "second") .done))))
    let third := linter "third" (.event (.emitted "third" 0) (.issue (issue "C" "") .done))
    let chosen := [first, second, third]
    let registry : Registry := { pre := chosen }
    let s : Strategies := { notes := false }
    let o : Orchestrator := { ignores := .ofRules [⟨"first", "A", none⟩, ⟨"second", "B", some "*.md"⟩] }
    let p := (Run.waiting "pre" default).pulls s registry.forLabel 1 o
    let ended? : Event → Option String := fun e => match e with
      | .ended linter => some linter
      | _ => none
    let seen := fun (steps : List Step) =>
      ((Session.eventsOf steps).map ended?, Session.issuesOf (steps.filter (Step.isShown o.ignores)))
    ∃ before own, Run.Stands s o.ignores "pre" default chosen before own p.run ∧
      seen (before ++ own) = ([some "first", none], [issue "B" "y.py"]) := by
  intro linter issue first second third chosen registry s o p ended? seen
  have hstream : ∀ c ∈ chosen, c.Streams default := by
    simp only [chosen, List.forall_mem_cons, List.not_mem_nil]
    exact ⟨⟨⟨_, rfl⟩, _, rfl⟩, ⟨⟨_, rfl⟩, _, rfl⟩, ⟨⟨_, rfl⟩, _, rfl⟩, nofun⟩
  obtain ⟨hstands, -, hanswers, -⟩ :=
    pulls_look_no_further s registry o "pre" default chosen rfl rfl (by decide) hstream
  have hissues : Session.issuesOf (s.drain registry.forLabel o "pre" default).1 =
      [issue "B" "y.py", issue "C" ""] := by decide +kernel
  have hfirst := (hanswers 1).1
  rw [hissues] at hfirst
  obtain ⟨before, own, producer, hstands, hevents, hshown, -⟩ := hstands 1 [] (issue "B" "y.py") hfirst
  refine ⟨_, _, hstands, ?_⟩
  have hended : p.events.map ended? = [some "first", none] := by decide +kernel
  exact congrArg₂ Prod.mk ((congrArg _ hevents.symm).trans hended) hshown

end LintEngine
