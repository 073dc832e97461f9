/-
Runs that are open at the same time keep out of each other's way. Whatever is done between the pulls of
a run, its answers are those of one trace: of the classes that it found when it was pulled for the first
time, each started under the rules in effect at that moment (`answers_eq_trace`). Behind the first pull
nothing has an effect on them but the run's own pulls and the rules that its orchestrator loads
(`answers_eq_concerned`). Main statement: `answers_isolated`.
-/
import LintEngine.Ignore.Rule
import LintEngine.Proofs.Run.Aggregation
import LintEngine.Proofs.Run.Pulls

namespace LintEngine

/-! ## The commands that matter to a run -/

namespace Command

/-- Whether a command pulls a run. -/
def pulls (run : String) : Command → Bool
  | .pull name => name = run
  | _ => false

/-- Whether a command leaves a run open, and the same run: it neither opens one under its name nor
closes it. -/
def spares (run : String) : Command → Bool
  | .open name _ _ _ | .close name => name ≠ run
  | _ => true

/-- Whether a command puts rules into effect for an orchestrator. -/
def loads (worker : String) : Command → Bool
  | .load name _ _ => name = worker
  | _ => false

/-- Whether a command pulls a run or puts rules into effect for its orchestrator. -/
def concerns (run worker : String) (c : Command) : Bool :=
  c.pulls run || c.loads worker

theorem eq_pull_of_pulls {run : String} {c : Command} (h : c.pulls run = true) : c = .pull run := by
  cases c with
  | pull name => rw [of_decide_eq_true h]
  | _ => cases h

theorem eq_load_of_loads {worker : String} {c : Command} (h : c.loads worker = true) :
    ∃ dir cli, c = .load worker dir cli := by
  cases c with
  | load name dir cli => exact ⟨dir, cli, by rw [of_decide_eq_true h]⟩
  | _ => cases h

end Command

namespace Session

variable {s s' : Session} {run worker : String} {r : Run} {c : Command}

/-- What a run answers to a command: something only to its pulls. -/
def answerTo (s : Session) (run : String) (c : Command) : List Pulled :=
  match c.pulls run, (s.step c).2.2 with
  | true, .pulled p => [p]
  | _, _ => []

/-- What a run answers to commands, one after the other. -/
def answers (s : Session) (run : String) : List Command → List Pulled
  | [] => []
  | c :: cs => s.answerTo run c ++ (s.step c).1.answers run cs

/-- The classes whose linters a run starts on a command, each with the rules in effect. -/
def startsOn (s : Session) (run : String) (c : Command) : List (LinterClass × IgnoreConfig) :=
  let (worker, r) := s.run run
  let w := s.worker worker
  if c.pulls run then
    (r.started w.strategies (s.registry worker).forLabel w.state).map (·, w.state.ignores)
  else []

/-- The classes whose linters a run starts in the course of commands. -/
def starts (s : Session) (run : String) : List Command → List (LinterClass × IgnoreConfig)
  | [] => []
  | c :: cs => s.startsOn run c ++ (s.step c).1.starts run cs

/-- The registry that a run finds when commands pull it for the first time. -/
def registryFound (s : Session) (run : String) : List Command → Registry
  | [] => .empty
  | c :: cs => if c.pulls run then s.registry (s.run run).1 else (s.step c).1.registryFound run cs

theorem answers_append (s : Session) (run : String) (front back : List Command) :
    s.answers run (front ++ back) = s.answers run front ++ (s.after front).answers run back := by
  induction front generalizing s with
  | nil => rfl
  | cons c front ih => rw [List.cons_append, answers, ih, ← List.append_assoc]; rfl

/-! ## What a command changes -/

/-- What an orchestrator holds after a command: other rules when it loads some, and other issues when one
of its runs is pulled or drained. -/
def stateAfter (s : Session) (worker : String) (c : Command) : Orchestrator :=
  let w := s.worker worker
  match c with
  | .load name dir cli =>
    if worker = name then (w.strategies.load w.state {} dir cli).2 else w.state
  | .pull run =>
    if worker = (s.run run).1 then
      ((s.run run).2.pull w.strategies (s.registry worker).forLabel w.state).2.2.2
    else w.state
  | .drain name stage ctx =>
    if worker = name then
      (w.strategies.drain (s.registry worker).forLabel w.state stage ctx).2.2
    else w.state
  | _ => w.state

/-- A new state, computed for the orchestrator that it is meant for, is all that changes. -/
theorem worker_setState (s : Session) (name worker : String) (o : String → Orchestrator) :
    (s.setState name (o name)).worker worker =
      { s.worker worker with state := if worker = name then o worker else (s.worker worker).state } := by
  unfold setState Session.worker
  simp only
  rw [OrderedMap.find?_insert]
  split
  · rename_i h; subst h; rfl
  · rfl

/-- A command changes nothing of an orchestrator but its state. -/
theorem worker_step (s : Session) (c : Command) (worker : String) :
    (s.step c).1.worker worker = { s.worker worker with state := s.stateAfter worker c } := by
  cases c with
  | register name c =>
    unfold step
    simp only
    split
    · exact worker_setRegistry ..
    · rfl
  | clear name => exact worker_setRegistry ..
  | snapshot name as => rfl
  | restore name «from» stages => exact worker_setRegistry ..
  | load name dir cli =>
    exact s.worker_setState name worker fun name =>
      ((s.worker name).strategies.load (s.worker name).state {} dir cli).2
  | «open» run name stage ctx => rfl
  | pull run =>
    exact s.worker_setState (s.run run).1 worker fun name =>
      ((s.run run).2.pull (s.worker name).strategies (s.registry name).forLabel (s.worker name).state).2.2.2
  | close run => rfl
  | drain name stage ctx =>
    exact s.worker_setState name worker fun name =>
      ((s.worker name).strategies.drain (s.registry name).forLabel (s.worker name).state stage ctx).2.2

theorem strategies_step (s : Session) (c : Command) (worker : String) :
    ((s.step c).1.worker worker).strategies = (s.worker worker).strategies := by
  rw [worker_step]

/-- A run stays as it is until it is pulled. -/
theorem run_step (hspared : c.spares run = true) (hpull : c.pulls run = false) :
    (s.step c).1.run run = s.run run := by
  cases c with
  | register name c =>
    unfold step
    simp only
    split
    · exact run_setRegistry ..
    · rfl
  | clear name => exact run_setRegistry ..
  | snapshot name as => rfl
  | restore name «from» stages => exact run_setRegistry ..
  | load name dir cli => rfl
  | «open» name worker stage ctx =>
    exact (run_insert ..).trans (if_neg (Ne.symm (of_decide_eq_true hspared)))
  | pull name => exact (run_insert ..).trans (if_neg (Ne.symm (of_decide_eq_false hpull)))
  | close name => exact (run_insert ..).trans (if_neg (Ne.symm (of_decide_eq_true hspared)))
  | drain name stage ctx => rfl

/-! ## The answers are those of a trace -/

section Trace

variable {plan : Nat → IgnoreConfig}

/-- What a pull does to its run in a session. -/
theorem step_pull (hrun : s.run run = (worker, r)) :
    let w := s.worker worker
    let pulled := r.pull w.strategies (s.registry worker).forLabel w.state
    s.answerTo run (.pull run) = [pulled.2.1] ∧
      (s.step (.pull run)).1.run run = (worker, pulled.2.2.1) := by
  intro w pulled
  have hpulls : (Command.pull run).pulls run = true := decide_eq_true rfl
  unfold answerTo
  rw [hpulls, step, hrun]
  exact ⟨rfl, (run_insert ..).trans (if_pos rfl)⟩

theorem startsOn_pull (hrun : s.run run = (worker, r)) :
    let w := s.worker worker
    s.startsOn run (.pull run) =
      (r.started w.strategies (s.registry worker).forLabel w.state).map (·, w.state.ignores) := by
  unfold startsOn
  rw [hrun]
  exact if_pos (decide_eq_true rfl)

theorem answerTo_other (s : Session) (hpull : c.pulls run = false) : s.answerTo run c = [] := by
  unfold answerTo; rw [hpull]

theorem startsOn_other (s : Session) (hpull : c.pulls run = false) : s.startsOn run c = [] := by
  unfold startsOn; simp [hpull]

/-- A plan that has the rules under which linters are started. -/
def Agrees (plan : Nat → IgnoreConfig) (starts : List (LinterClass × IgnoreConfig)) : Prop :=
  ∀ k (h : k < starts.length), plan k = starts[k].2

instance (plan : Nat → IgnoreConfig) (starts : List (LinterClass × IgnoreConfig)) :
    Decidable (Agrees plan starts) :=
  inferInstanceAs (Decidable (∀ k (h : k < starts.length), plan k = starts[k].2))

theorem Agrees.left {l m : List (LinterClass × IgnoreConfig)} (h : Agrees plan (l ++ m)) :
    Agrees plan l := by
  intro k hk
  rw [h k (by rw [List.length_append]; omega), List.getElem_append_left hk]

theorem Agrees.right {l m : List (LinterClass × IgnoreConfig)} (h : Agrees plan (l ++ m)) :
    Agrees (laterRules plan l.length) m := by
  intro k hk
  have hlater : laterRules plan l.length k = _ :=
    h (l.length + k) (by rw [List.length_append]; omega)
  rw [hlater, List.getElem_append_right (Nat.le_add_right ..)]
  simp only [Nat.add_sub_cancel_left]

theorem Agrees.of_map {classes : List LinterClass} {rules : IgnoreConfig}
    (h : Agrees plan (classes.map (·, rules))) (k : Nat) (hk : k < classes.length) : plan k = rules := by
  rw [h k (by rw [List.length_map]; exact hk), List.getElem_map]

/-- Whatever happens between the pulls of a run, it answers as its trace does. -/
theorem answers_eq_trace (hrun : s.run run = (worker, r)) (commands : List Command)
    (hspared : ∀ c ∈ commands, c.spares run = true) (hplan : Agrees plan (s.starts run commands)) :
    s.answers run commands =
      (r.trace (s.worker worker).strategies (s.registryFound run commands).forLabel plan).answers
        (commands.countP (·.pulls run)) := by
  -- whatever has been done so far, the run stands for the part of the trace that is left
  induction commands generalizing s r plan with
  | nil => rfl
  | cons c cs ih =>
    obtain ⟨hc, hlater⟩ := List.forall_mem_cons.1 hspared
    rw [answers, registryFound, List.countP_cons]
    cases hpull : c.pulls run with
    | false =>
      have hsame := run_step (s := s) hc hpull
      rw [starts, startsOn_other s hpull] at hplan
      have hrest := ih (hsame.trans hrun) hlater hplan
      rw [strategies_step] at hrest
      rw [answerTo_other s hpull]
      exact hrest
    | true =>
      cases Command.eq_pull_of_pulls hpull
      obtain ⟨hanswer, hnext⟩ := step_pull hrun
      rw [starts, startsOn_pull hrun] at hplan
      have hfollows := Run.pull_follows (s.worker worker).strategies (s.registry worker).forLabel plan
        (s.worker worker).state r hplan.left.of_map
      have hrest := ih hnext hlater hplan.right
      -- the run has now been pulled: it holds on to the classes that it found
      rw [strategies_step, List.length_map, (Run.pull_isStarted ..).trace_eq _ _
        (s.registry worker).forLabel, hfollows.rest] at hrest
      rw [hanswer, hrest, hfollows.answer, hrun]
      rfl

end Trace

end Session

/-! ## The linters that are started -/

namespace Run

/-- The classes whose linters a run has still to start, if nothing comes in between. -/
def upcoming (s : Strategies) (candidates : String → List LinterClass) : Run → List LinterClass
  | .closed => []
  | .working _ _ _ _ rest => rest
  | .waiting stage ctx =>
    match s.select stage ctx (candidates stage) with
    | .error _ => []
    | .ok chosen => chosen

section Upcoming

variable {s : Strategies} {candidates : String → List LinterClass} {o : Orchestrator} {stage : String}
variable {ctx : LintContext}

theorem IsStarted.upcoming_eq {r : Run} (h : r.IsStarted) (s : Strategies)
    (candidates candidates' : String → List LinterClass) :
    r.upcoming s candidates = r.upcoming s candidates' := by
  cases r with
  | waiting stage ctx => cases h
  | working stage ctx producer script rest => rfl
  | closed => rfl

theorem workOff_upcoming (producer : Producer) (script : Script) {rest started : List LinterClass}
    (later : Unit → List Event × Advance)
    (hlater : started ++ (settle o stage ctx (later ()).2).2.1.upcoming s candidates <+: rest) :
    startedBehind script started ++
      (settle o stage ctx (workOff producer script rest later).2).2.1.upcoming s candidates <+: rest := by
  unfold workOff startedBehind
  cases script.next with
  | mk events head =>
    cases head with
    | issue i script => exact List.prefix_refl rest
    | failed fault => exact List.nil_prefix
    | done => exact hlater

theorem startNext_upcoming (s : Strategies) (candidates : String → List LinterClass) (o : Orchestrator)
    (stage : String) (ctx : LintContext) (ignores : IgnoreConfig) (classes : List LinterClass) :
    startedFor s ignores stage ctx classes ++
      (settle o stage ctx (startNext s ignores stage ctx classes).2).2.1.upcoming s candidates <+:
        classes := by
  induction classes with
  | nil => exact List.prefix_refl []
  | cons c cs ih =>
    rw [startedFor, startNext]
    cases s.start ignores stage ctx c with
    | mk events result =>
      cases result with
      | error fault => exact List.cons_prefix_cons.2 ⟨rfl, List.nil_prefix⟩
      | ok p => exact List.cons_prefix_cons.2 ⟨rfl, workOff_upcoming p.1 p.2 _ ih⟩

/-- A pull starts linters in the order of the classes, without leaving one out. -/
theorem pull_upcoming (s : Strategies) (candidates : String → List LinterClass) (o : Orchestrator)
    (r : Run) : r.started s candidates o ++ (r.pull s candidates o).2.2.1.upcoming s candidates <+:
      r.upcoming s candidates := by
  cases r with
  | closed => exact List.prefix_refl []
  | working stage ctx producer script rest =>
    exact workOff_upcoming producer script (fun _ => startNext s o.ignores stage ctx rest)
      (startNext_upcoming s candidates o stage ctx o.ignores rest)
  | waiting stage ctx =>
    rw [started, pull, upcoming]
    cases s.select stage ctx (candidates stage) with
    | error fault => exact List.prefix_refl []
    | ok chosen => exact startNext_upcoming s candidates o.reset stage ctx o.ignores chosen

end Upcoming

/-- A run that has been pulled gives the same answer and is left the same under the same rules, whatever
else the orchestrator holds. -/
theorem IsStarted.pull_congr {r : Run} (h : r.IsStarted) (s : Strategies)
    (candidates candidates' : String → List LinterClass) {o o' : Orchestrator}
    (ho : o'.ignores = o.ignores) :
    (r.pull s candidates' o').2.1 = (r.pull s candidates o).2.1 ∧
      (r.pull s candidates' o').2.2.1 = (r.pull s candidates o).2.2.1 := by
  cases r with
  | waiting stage ctx => cases h
  | closed => exact ⟨rfl, rfl⟩
  | working stage ctx producer script rest =>
    simp only [pull, ho]
    cases (workOff producer script rest fun _ => startNext s o.ignores stage ctx rest).2 <;>
      exact ⟨rfl, rfl⟩

end Run

namespace Session

variable {s s' : Session} {run worker : String} {r : Run} {c : Command}

/-- All pulls of a run together start linters in the order of the classes, too. -/
theorem starts_prefix (hrun : s.run run = (worker, r)) (commands : List Command)
    (hspared : ∀ c ∈ commands, c.spares run = true) :
    (s.starts run commands).map Prod.fst <+:
      r.upcoming (s.worker worker).strategies (s.registryFound run commands).forLabel := by
  induction commands generalizing s r with
  | nil => exact List.nil_prefix
  | cons c cs ih =>
    obtain ⟨hc, hlater⟩ := List.forall_mem_cons.1 hspared
    rw [starts, registryFound]
    cases hpull : c.pulls run with
    | false =>
      have hsame := run_step (s := s) hc hpull
      have hrest := ih (hsame.trans hrun) hlater
      rw [strategies_step] at hrest
      rw [startsOn_other s hpull]
      exact hrest
    | true =>
      cases Command.eq_pull_of_pulls hpull
      obtain ⟨-, hnext⟩ := step_pull hrun
      have hrest := ih hnext hlater
      rw [strategies_step, (Run.pull_isStarted ..).upcoming_eq _ _ (s.registry worker).forLabel] at hrest
      have hpulled := Run.pull_upcoming (s.worker worker).strategies (s.registry worker).forLabel
        (s.worker worker).state r
      have hclasses : (s.startsOn run (.pull run)).map Prod.fst =
          r.started (s.worker worker).strategies (s.registry worker).forLabel (s.worker worker).state := by
        rw [startsOn_pull hrun, List.map_map]; exact List.map_id _
      rw [List.map_append, hclasses, hrun]
      exact ((List.prefix_append_right_inj _).2 hrest).trans hpulled

/-! ## What has no effect -/

theorem ignores_drain (s : Strategies) (candidates : String → List LinterClass) (o : Orchestrator)
    (stage : String) (ctx : LintContext) : (s.drain candidates o stage ctx).2.2.ignores = o.ignores := by
  unfold Strategies.drain
  cases s.select stage ctx (candidates stage) with
  | error fault => rfl
  | ok chosen =>
    simp only [Orchestrator.foldl_observe_eq, Orchestrator.ignores_recordAll]
    rfl

/-- Only loading changes the rules of an orchestrator. -/
theorem ignores_step (s : Session) (hload : c.loads worker = false) :
    ((s.step c).1.worker worker).state.ignores = (s.worker worker).state.ignores := by
  rw [worker_step]
  cases c with
  | load name dir cli =>
    have hother : worker ≠ name := Ne.symm (of_decide_eq_false hload)
    simp only [stateAfter, if_neg hother]
  | pull run =>
    simp only [stateAfter]
    split
    · exact Run.ignores_pull ..
    · rfl
  | drain name stage ctx =>
    simp only [stateAfter]
    split
    · exact ignores_drain ..
    · rfl
  | _ => rfl

/-- Two sessions that are the same to a run that has been pulled: it is as far in both, under the same
strategies and rules. -/
structure SameTo (run worker : String) (s s' : Session) : Prop where
  owner : (s.run run).1 = worker
  started : (s.run run).2.IsStarted
  run : s'.run run = s.run run
  strategies : (s'.worker worker).strategies = (s.worker worker).strategies
  ignores : (s'.worker worker).state.ignores = (s.worker worker).state.ignores

/-- A command that does not concern a run makes no difference to it. -/
theorem SameTo.skip (h : SameTo run worker s s') (hspared : c.spares run = true)
    (hc : c.concerns run worker = false) : SameTo run worker (s.step c).1 s' := by
  obtain ⟨hpull, hload⟩ := Bool.or_eq_false_iff.1 hc
  have hrun := run_step (s := s) hspared hpull
  refine ⟨?_, ?_, ?_, ?_, ?_⟩
  · rw [hrun]; exact h.owner
  · rw [hrun]; exact h.started
  · rw [hrun]; exact h.run
  · rw [strategies_step]; exact h.strategies
  · rw [ignores_step s hload]; exact h.ignores

theorem SameTo.pull (h : SameTo run worker s s') :
    s'.answerTo run (.pull run) = s.answerTo run (.pull run) ∧
      SameTo run worker (s.step (.pull run)).1 (s'.step (.pull run)).1 := by
  have hrun : s.run run = (worker, (s.run run).2) := Prod.ext h.owner rfl
  obtain ⟨hanswer, hnext⟩ := step_pull hrun
  obtain ⟨hanswer', hnext'⟩ := step_pull (h.run.trans hrun)
  obtain ⟨hsame, hleft⟩ := h.started.pull_congr (s.worker worker).strategies
    (s.registry worker).forLabel (s'.registry worker).forLabel h.ignores
  rw [h.strategies] at hanswer' hnext'
  refine ⟨by rw [hanswer, hanswer', hsame], ?_, ?_, ?_, ?_, ?_⟩
  · rw [hnext]
  · rw [hnext]; exact Run.pull_isStarted ..
  · rw [hnext, hnext', hleft]
  · rw [strategies_step, strategies_step]; exact h.strategies
  · rw [ignores_step s rfl, ignores_step s' rfl]; exact h.ignores

theorem SameTo.load (h : SameTo run worker s s') (dir : String) (cli : Option IgnoreConfig) :
    SameTo run worker (s.step (.load worker dir cli)).1 (s'.step (.load worker dir cli)).1 := by
  have hrules : ∀ s : Session, ((s.step (.load worker dir cli)).1.worker worker).state.ignores =
      Strategies.rulesFor ((s.worker worker).strategies.projectIgnores {} dir).2 cli := by
    intro s
    rw [worker_step]
    simp only [stateAfter, if_pos]
    rfl
  refine ⟨h.owner, h.started, h.run, ?_, ?_⟩
  · rw [strategies_step, strategies_step]; exact h.strategies
  · rw [hrules, hrules, h.strategies]

/-- Without the commands that do not concern it a run that has been pulled answers the same. -/
theorem SameTo.answers_eq (h : SameTo run worker s s') (commands : List Command)
    (hspared : ∀ c ∈ commands, c.spares run = true) :
    s.answers run commands = s'.answers run (commands.filter (·.concerns run worker)) := by
  -- both sessions take part in pulls and loads, only the first one in what lies between them
  induction commands generalizing s s' with
  | nil => rfl
  | cons c cs ih =>
    obtain ⟨hc, hlater⟩ := List.forall_mem_cons.1 hspared
    cases hpull : c.pulls run with
    | true =>
      cases Command.eq_pull_of_pulls hpull
      have hconcerns : (Command.pull run).concerns run worker = true := Bool.or_eq_true_iff.2 (.inl hpull)
      rw [List.filter_cons_of_pos hconcerns, answers, answers, h.pull.1, ih h.pull.2 hlater]
    | false =>
      cases hload : c.loads worker with
      | false =>
        have hother : c.concerns run worker = false := Bool.or_eq_false_iff.2 ⟨hpull, hload⟩
        rw [List.filter_cons_of_neg (by rw [hother]; decide), answers, answerTo_other s hpull]
        exact ih (h.skip hc hother) hlater
      | true =>
        obtain ⟨dir, cli, rfl⟩ := Command.eq_load_of_loads hload
        have hconcerns : (Command.load worker dir cli).concerns run worker = true :=
          Bool.or_eq_true_iff.2 (.inr hload)
        rw [List.filter_cons_of_pos hconcerns, answers, answers, answerTo_other s hpull,
          answerTo_other s' hpull, ih (h.load dir cli) hlater]

theorem owner_after (commands : List Command) (hspared : ∀ c ∈ commands, c.spares run = true)
    (s : Session) : ((s.after commands).run run).1 = (s.run run).1 := by
  induction commands generalizing s with
  | nil => rfl
  | cons c cs ih =>
    obtain ⟨hc, hlater⟩ := List.forall_mem_cons.1 hspared
    have hstep : ((s.step c).1.run run).1 = (s.run run).1 := by
      cases hpull : c.pulls run with
      | false => rw [run_step hc hpull]
      | true =>
        cases Command.eq_pull_of_pulls hpull
        have hrun : s.run run = ((s.run run).1, (s.run run).2) := rfl
        rw [(step_pull hrun).2]
    exact (ih hlater _).trans hstep

/-- Behind a pull of a run nothing has an effect on its answers but its own pulls and the rules that are
loaded for its orchestrator. -/
theorem answers_eq_concerned (s : Session) (run : String) (front back : List Command)
    (hspared : ∀ c ∈ front ++ .pull run :: back, c.spares run = true) :
    s.answers run (front ++ .pull run :: back) =
      s.answers run (front ++ .pull run :: back.filter (·.concerns run (s.run run).1)) := by
  obtain ⟨hfront, hpulled⟩ := List.forall_mem_append.1 hspared
  obtain ⟨-, hback⟩ := List.forall_mem_cons.1 hpulled
  have howner := owner_after front hfront s
  have hrun : (s.after front).run run = (((s.after front).run run).1, ((s.after front).run run).2) := rfl
  have hnext := (step_pull hrun).2
  have hsame : SameTo run (s.run run).1 ((s.after front).step (.pull run)).1
      ((s.after front).step (.pull run)).1 := by
    refine ⟨?_, ?_, rfl, rfl, rfl⟩
    · rw [hnext]; exact howner
    · rw [hnext]; exact Run.pull_isStarted ..
  rw [answers_append, answers_append, answers, answers, hsame.answers_eq back hback]

/-- The linters at the same place of two sequences are started under the same rules. -/
def SameRules (l m : List (LinterClass × IgnoreConfig)) : Prop :=
  ∀ k (h : k < l.length) (h' : k < m.length), l[k].2 = m[k].2

theorem SameRules.exists_agrees {l m : List (LinterClass × IgnoreConfig)} (h : SameRules l m) :
    ∃ plan, Agrees plan l ∧ Agrees plan m := by
  refine ⟨fun k => if hl : k < l.length then l[k].2 else if hm : k < m.length then m[k].2 else ∅,
    fun k hk => dif_pos hk, fun k hk => ?_⟩
  by_cases hl : k < l.length
  · exact (dif_pos hl).trans (h k hl hk)
  · exact (dif_neg hl).trans (dif_pos hk)

end Session

/-- The answers to a number of pulls of a run, if each of the classes that it chooses among candidates is
started under the rules that a plan has for it. -/
def Strategies.answersUnder (s : Strategies) (stage : String) (ctx : LintContext)
    (candidates : List LinterClass) (plan : Nat → IgnoreConfig) (n : Nat) : List Pulled :=
  let t : Trace :=
    match s.select stage ctx candidates with
    | .error fault => ([], some fault)
    | .ok chosen => s.traceUnder stage ctx plan chosen
  Pulled.sequence t.2 (Session.issuesOf t.1) n

/-- A run that is open is isolated. Whatever commands come between its pulls, how it answers is settled
by its stage and input, the classes that it finds when it is pulled for the first time, and the rules in
effect whenever it starts the linter of a class, which it does in the order chosen. Two runs for which
these are the same answer the same, in whatever sessions they are pulled; and behind the first pull
only a run's own pulls and the rules loaded for its orchestrator have any effect. -/
theorem answers_isolated (s : Session) (run worker stage : String) (ctx : LintContext)
    (commands : List Command) (hrun : s.run run = (worker, .waiting stage ctx))
    (hspared : ∀ c ∈ commands, c.spares run = true) :
    let strategies := (s.worker worker).strategies
    let found := (s.registryFound run commands).forLabel stage
    let starts := s.starts run commands
    let n := commands.countP (·.pulls run)
    (∀ plan, Session.Agrees plan starts →
      s.answers run commands = strategies.answersUnder stage ctx found plan n) ∧
    (∀ chosen, strategies.select stage ctx found = .ok chosen → starts.map Prod.fst <+: chosen) ∧
    (∀ (s' : Session) (run' worker' : String) (commands' : List Command),
      s'.run run' = (worker', .waiting stage ctx) → (∀ c ∈ commands', c.spares run' = true) →
      (s'.worker worker').strategies = strategies →
      (s'.registryFound run' commands').forLabel stage = found →
      Session.SameRules starts (s'.starts run' commands') →
      n ≤ commands'.countP (·.pulls run') →
        s.answers run commands <+: s'.answers run' commands') ∧
    (∀ front back, commands = front ++ .pull run :: back → s.answers run commands =
      s.answers run (front ++ .pull run :: back.filter (·.concerns run worker))) := by
  have hanswers : ∀ (s : Session) (run worker : String) (commands : List Command),
      s.run run = (worker, .waiting stage ctx) → (∀ c ∈ commands, c.spares run = true) →
      ∀ plan, Session.Agrees plan (s.starts run commands) → s.answers run commands =
        (s.worker worker).strategies.answersUnder stage ctx
          ((s.registryFound run commands).forLabel stage) plan (commands.countP (·.pulls run)) :=
    fun s run worker commands hrun hspared plan hplan =>
      (Session.answers_eq_trace hrun commands hspared hplan).trans (Trace.answers_eq ..)
  intro strategies found starts n
  refine ⟨hanswers s run worker commands hrun hspared, ?_, ?_, ?_⟩
  · intro chosen hchosen
    have hprefix := Session.starts_prefix hrun commands hspared
    rw [Run.upcoming, hchosen] at hprefix
    exact hprefix
  · intro s' run' worker' commands' hrun' hspared' hstrategies hfound hstarts hn
    obtain ⟨plan, hplan, hplan'⟩ := hstarts.exists_agrees
    rw [hanswers s run worker commands hrun hspared plan hplan,
      hanswers s' run' worker' commands' hrun' hspared' plan hplan', hstrategies, hfound]
    exact Pulled.sequence_prefix _ _ hn
  · rintro front back rfl
    have hconcerned := Session.answers_eq_concerned s run front back hspared
    rw [hrun] at hconcerned
    exact hconcerned

/-- A run answers in the middle of a linter as before when its classes are cleared, others are
registered, a second run of the same orchestrator starts and rules are loaded; the next linter that it
starts is under the new rules. -/
theorem answers_isolated_from_second_run :
    let issue := fun (id file : String) => (⟨id, "", .warning, file, ""⟩ : Issue)
    let linter := fun (key : String) (issues : List Issue) =>
      ({ own := { key, linterName := some (.text key), stage := some (.text "pre"),
                  run := .method fun _ => .lazy (.ofIssues issues) } } : LinterClass)
    let first := linter "first" [issue "A" "x.md", issue "A" "y.md"]
    let second := linter "second" [issue "B" "x.md", issue "B" "y.py"]
    let s : Session :=
      { shared := { pre := [first, second] }
        workers := OrderedMap.insert ∅ "worker" { strategies := {} }
        runs := OrderedMap.insert (OrderedMap.insert ∅ "run" ("worker", .waiting "pre" default))
          "other" ("worker", .waiting "pre" default) }
    let rules := IgnoreConfig.ofRules [⟨"first", "A", none⟩, ⟨"second", "B", some "*.md"⟩]
    let commands : List Command :=
      [.pull "run", .clear "worker", .register "worker" second, .load "worker" "" (some rules),
        .pull "other", .pull "run", .pull "other", .pull "run", .pull "run"]
    let issue? : Pulled → Option Issue := fun p => match p with
      | .issue i => some i
      | .finished | .faulted _ => none
    (s.answers "run" commands).map issue? =
      [some (issue "A" "x.md"), some (issue "A" "y.md"), some (issue "B" "y.py"), none] := by
  intro issue linter first second s rules commands issue?
  have h := answers_isolated s "run" "worker" "pre" default commands rfl (by decide)
  let plan : Nat → IgnoreConfig := fun k => if k = 0 then ∅ else rules
  have hplan : Session.Agrees plan (s.starts "run" commands) := by decide +kernel
  rw [h.1 plan hplan]
  decide +kernel

end LintEngine
