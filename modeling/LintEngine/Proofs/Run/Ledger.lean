/-
What a run of linters delivers, as a ledger: pairs of a class and an issue, beginning anew when a run
starts. Every issue is delivered under the name that its class declares, so that one pull, or a whole
run, keeps the list and the groups of an orchestrator in step with the ledger (`pull_holds`,
`drain_holds`).
-/
import LintEngine.Run.Session

namespace LintEngine

/-- What counts for the collection of an orchestrator: one of its runs starts, or the linter of a class
delivers an issue. -/
inductive Mark
  | started
  | delivered (c : LinterClass) (i : Issue)

/-- What has been delivered, by which class, since a run last started. -/
abbrev Ledger := List (LinterClass × Issue)

namespace Ledger

/-- The ledger after one more mark. -/
def add (w : Ledger) : Mark → Ledger
  | .started => []
  | .delivered c i => w ++ [(c, i)]

/-- The ledger after more marks. -/
def addAll (w : Ledger) (marks : List Mark) : Ledger :=
  marks.foldl add w

/-- The issues, in order. -/
def issues (w : Ledger) : List Issue :=
  w.map Prod.snd

/-- The distinct linter names, in the order of their first occurrence. -/
def names (w : Ledger) : List String :=
  (OrderedSet.ofList (w.map fun e => e.1.declaredName)).toList

/-- The issues of a linter name, in order. -/
def issuesOf (w : Ledger) (name : String) : List Issue :=
  (w.filter fun e => e.1.declaredName = name).map Prod.snd

/-- Every class of the ledger declares the linter name that it stands under. -/
def Declared (w : Ledger) : Prop :=
  ∀ e ∈ w, e.1.linterName.text? = some e.1.declaredName

theorem addAll_append (w : Ledger) (l m : List Mark) : w.addAll (l ++ m) = (w.addAll l).addAll m :=
  List.foldl_append

theorem mem_names {w : Ledger} {name : String} :
    name ∈ w.names ↔ ∃ e ∈ w, e.1.declaredName = name := by
  unfold names
  rw [← OrderedSet.mem_def, OrderedSet.mem_ofList, List.mem_map]

theorem names_concat (w : Ledger) (c : LinterClass) (i : Issue) :
    names (w ++ [(c, i)]) =
      if c.declaredName ∈ w.names then w.names else w.names ++ [c.declaredName] := by
  unfold names
  rw [List.map_append, List.map_singleton, OrderedSet.ofList_concat, OrderedSet.toList_insert]
  rfl

theorem issuesOf_concat (w : Ledger) (c : LinterClass) (i : Issue) (name : String) :
    issuesOf (w ++ [(c, i)]) name =
      if name = c.declaredName then w.issuesOf name ++ [i] else w.issuesOf name := by
  unfold issuesOf
  rw [List.filter_append, List.map_append]
  by_cases h : name = c.declaredName
  · subst h; simp
  · rw [if_neg h]; simp [Ne.symm h]

theorem issuesOf_ne_nil {w : Ledger} {name : String} (h : name ∈ w.names) : w.issuesOf name ≠ [] := by
  obtain ⟨e, he, hname⟩ := mem_names.1 h
  have hmem : e.2 ∈ w.issuesOf name :=
    List.mem_map_of_mem (List.mem_filter.2 ⟨he, by simpa using hname⟩)
  exact List.ne_nil_of_mem hmem

end Ledger

/-! ## Where issues come from -/

/-- The linter goes by the name that its class declares. -/
def Producer.IsNamed (p : Producer) : Prop :=
  p.cls.linterName.text? = some p.name

theorem Producer.IsNamed.declaredName_eq {p : Producer} (h : p.IsNamed) :
    p.cls.declaredName = p.name := by
  unfold LinterClass.declaredName; rw [h]; rfl

theorem Strategies.start_isNamed {s : Strategies} {ignores : IgnoreConfig} {stage : String}
    {ctx : LintContext} {c : LinterClass} {events : List Event} {p : Producer} {script : Script}
    (h : s.start ignores stage ctx c = (events, .ok (p, script))) : p.IsNamed := by
  unfold Strategies.start at h
  split at h
  · cases h
  · rename_i name declared hvalid
    simp only at h
    split at h
    · cases h
    · split at h
      · cases h
      · cases h; exact LinterClass.text?_linterName_of_validate hvalid

namespace Run

/-- What a pull that gets so far delivers comes from a linter under its declared name. -/
def Advance.IsNamed : Advance → Prop
  | .delivered producer _ _ _ => producer.IsNamed
  | .finished | .faulted _ => True

/-- The linter that the run is in goes by its declared name. -/
def IsNamed : Run → Prop
  | .working _ _ producer _ _ => producer.IsNamed
  | .waiting _ _ | .closed => True

theorem workOff_isNamed {p : Producer} (hp : p.IsNamed) (script : Script) (rest : List LinterClass)
    {later : Unit → List Event × Advance} (hlater : (later ()).2.IsNamed) :
    (workOff p script rest later).2.IsNamed := by
  unfold workOff
  split
  · exact hp
  · trivial
  · exact hlater

theorem startNext_isNamed (s : Strategies) (ignores : IgnoreConfig) (stage : String) (ctx : LintContext)
    (classes : List LinterClass) : (startNext s ignores stage ctx classes).2.IsNamed := by
  induction classes with
  | nil => trivial
  | cons c cs ih =>
    -- a class that reports nothing passes the search on to the classes after it
    unfold startNext
    split
    · trivial
    · rename_i started producer script hstart
      exact workOff_isNamed (Strategies.start_isNamed hstart) script cs ih

/-! ## Pulling -/

/-- The mark that a pull leaves by starting a run. -/
def startMarks : Run → List Mark
  | .waiting _ _ => [.started]
  | .working _ _ _ _ _ | .closed => []

/-- The mark that a pull leaves by its issue, which comes from the class whose linter the run is in
afterwards. -/
def deliveryMarks : Pulled → Run → List Mark
  | .issue i, .working _ _ producer _ _ => [.delivered producer.cls i]
  | _, _ => []

/-- The marks that a pull leaves. -/
def pullMarks (s : Strategies) (candidates : String → List LinterClass) (o : Orchestrator) (r : Run) :
    List Mark :=
  let (_, pulled, r', _) := r.pull s candidates o
  r.startMarks ++ deliveryMarks pulled r'

end Run

namespace Orchestrator

/-- The list and the groups of an orchestrator both hold a ledger. -/
structure Holds (o : Orchestrator) (w : Ledger) : Prop where
  issues : o.issues = w.issues
  keys : o.byLinter.keys = w.names
  groups : ∀ name, (o.byLinter.find? name).getD [] = w.issuesOf name
  declared : w.Declared

theorem holds_reset (o : Orchestrator) : o.reset.Holds [] where
  issues := rfl
  keys := rfl
  groups := fun _ => rfl
  declared := fun e he => by cases he

theorem Holds.record {o : Orchestrator} {w : Ledger} (h : o.Holds w) {p : Producer} (hp : p.IsNamed)
    (i : Issue) : (o.record p.name i).Holds (w ++ [(p.cls, i)]) := by
  -- the group is found by the linter's name, the ledger goes by the class: they agree
  have hname := hp.declaredName_eq
  refine ⟨?_, ?_, ?_, ?_⟩
  · show o.issues ++ [i] = (w ++ [(p.cls, i)]).map Prod.snd
    rw [h.issues, List.map_append]; rfl
  · show (o.byLinter.alter p.name _).keys = _
    rw [OrderedMap.keys_alter, h.keys, Ledger.names_concat, hname]
  · intro name
    show ((o.byLinter.alter p.name _).find? name).getD [] = _
    rw [OrderedMap.find?_alter, Ledger.issuesOf_concat, hname]
    by_cases hn : name = p.name
    · subst hn
      rw [if_pos rfl, if_pos rfl, ← h.groups]; rfl
    · rw [if_neg hn, if_neg hn, h.groups]
  · intro e he
    rcases List.mem_append.1 he with he | he
    · exact h.declared e he
    · cases List.mem_singleton.1 he
      rw [hname]; exact hp

end Orchestrator

namespace Run

theorem settle_isNamed (o : Orchestrator) (stage : String) (ctx : LintContext) {a : Advance}
    (ha : a.IsNamed) : (settle o stage ctx a).2.1.IsNamed := by
  cases a with
  | delivered producer i script rest => exact ha
  | finished => trivial
  | faulted fault => trivial

theorem settle_holds {o : Orchestrator} {w : Ledger} (h : o.Holds w) (stage : String)
    (ctx : LintContext) {a : Advance} (ha : a.IsNamed) :
    (settle o stage ctx a).2.2.Holds
      (w.addAll (deliveryMarks (settle o stage ctx a).1 (settle o stage ctx a).2.1)) := by
  cases a with
  | delivered producer i script rest => exact h.record ha i
  | finished => exact h
  | faulted fault => exact h

/-- What an orchestrator holds when a pull of the run goes to work: starting the run empties it. -/
def begun (o : Orchestrator) : Run → Orchestrator
  | .waiting _ _ => o.reset
  | .working _ _ _ _ _ | .closed => o

theorem begun_holds {o : Orchestrator} {w : Ledger} (h : o.Holds w) (r : Run) :
    (r.begun o).Holds (w.addAll r.startMarks) := by
  cases r with
  | waiting stage ctx => exact o.holds_reset
  | working stage ctx producer script rest => exact h
  | closed => exact h

/-- All that a pull can do: it gets somewhere, and is settled there. -/
theorem pull_eq_settle (s : Strategies) (candidates : String → List LinterClass) (o : Orchestrator)
    {r : Run} (hr : r.IsNamed) : ∃ events stage ctx a, a.IsNamed ∧
      r.pull s candidates o = (events, settle (r.begun o) stage ctx a) := by
  cases r with
  | closed => exact ⟨[], "", default, .finished, trivial, rfl⟩
  | working stage ctx producer script rest =>
    let later := fun _ : Unit => startNext s o.ignores stage ctx rest
    have hnext : (workOff producer script rest later).2.IsNamed :=
      workOff_isNamed hr script rest (startNext_isNamed s o.ignores stage ctx rest)
    exact ⟨_, stage, ctx, _, hnext, rfl⟩
  | waiting stage ctx =>
    cases hselect : s.select stage ctx (candidates stage) with
    | error fault => exact ⟨[], stage, ctx, .faulted fault, trivial, by simp only [pull, hselect]; rfl⟩
    | ok chosen =>
      have hnext := startNext_isNamed s o.reset.ignores stage ctx chosen
      exact ⟨_, stage, ctx, _, hnext, by simp only [pull, hselect]; rfl⟩

theorem pull_isNamed (s : Strategies) (candidates : String → List LinterClass) (o : Orchestrator)
    {r : Run} (hr : r.IsNamed) : (r.pull s candidates o).2.2.1.IsNamed := by
  obtain ⟨events, stage, ctx, a, ha, heq⟩ := pull_eq_settle s candidates o hr
  rw [heq]; exact settle_isNamed _ stage ctx ha

/-- A pull of any run keeps the collection in step with what has been delivered. -/
theorem pull_holds (s : Strategies) (candidates : String → List LinterClass) {o : Orchestrator}
    {w : Ledger} (h : o.Holds w) {r : Run} (hr : r.IsNamed) :
    (r.pull s candidates o).2.2.2.Holds (w.addAll (r.pullMarks s candidates o)) := by
  obtain ⟨events, stage, ctx, a, ha, heq⟩ := pull_eq_settle s candidates o hr
  unfold pullMarks
  rw [heq, Ledger.addAll_append]
  exact settle_holds (begun_holds h r) stage ctx ha

end Run

/-! ## Draining -/

namespace Step

/-- What a step delivers comes from a linter under its declared name. -/
def IsNamed : Step → Prop
  | .event _ => True
  | .issue producer _ => producer.IsNamed

/-- The mark that a step leaves. -/
def marks : Step → List Mark
  | .event _ => []
  | .issue producer i => [.delivered producer.cls i]

end Step

theorem Script.steps_isNamed {p : Producer} (hp : p.IsNamed) (script : Script) :
    ∀ step ∈ script.steps p, step.IsNamed := by
  induction script with
  | done => intro step h; cases h
  | fail fault => intro step h; cases h
  | event e rest ih =>
    intro step h
    rcases List.mem_cons.1 h with rfl | h
    · trivial
    · exact ih step h
  | issue i rest ih =>
    intro step h
    rcases List.mem_cons.1 h with rfl | h
    · exact hp
    · exact ih step h

theorem Step.event_isNamed (events : List Event) : ∀ step ∈ events.map Step.event, step.IsNamed := by
  intro step h
  obtain ⟨e, _, rfl⟩ := List.mem_map.1 h
  trivial

theorem Strategies.trace_isNamed (s : Strategies) (ignores : IgnoreConfig) (stage : String)
    (ctx : LintContext) (classes : List LinterClass) :
    ∀ step ∈ (s.trace ignores stage ctx classes).1, step.IsNamed := by
  induction classes with
  | nil => intro step h; cases h
  | cons c cs ih =>
    intro step h
    unfold Strategies.trace at h
    split at h
    · exact Step.event_isNamed _ step h
    · rename_i started producer script hstart
      have hscript := Script.steps_isNamed (Strategies.start_isNamed hstart) script
      split at h
      · rcases List.mem_append.1 h with h | h
        · exact Step.event_isNamed _ step h
        · exact hscript step h
      · rcases List.mem_append.1 h with h | h
        · rcases List.mem_append.1 h with h | h
          · exact Step.event_isNamed _ step h
          · exact hscript step h
        · exact ih step h

theorem Orchestrator.Holds.observe {o : Orchestrator} {w : Ledger} (h : o.Holds w) {step : Step}
    (hs : step.IsNamed) : (o.observe step).Holds (w.addAll step.marks) := by
  cases step with
  | event e => exact h
  | issue producer i => exact h.record hs i

theorem Orchestrator.Holds.observeAll {steps : List Step} (hs : ∀ step ∈ steps, step.IsNamed)
    {o : Orchestrator} {w : Ledger} (h : o.Holds w) :
    (steps.foldl Orchestrator.observe o).Holds (w.addAll (steps.flatMap Step.marks)) := by
  induction steps generalizing o w with
  | nil => exact h
  | cons step steps ih =>
    rw [List.foldl_cons, List.flatMap_cons, Ledger.addAll_append]
    exact ih (fun x hx => hs x (List.mem_cons_of_mem step hx))
      (h.observe (hs step (List.mem_cons_self ..)))

/-- The marks that a run leaves which is pulled from start to end. -/
def Strategies.drainMarks (s : Strategies) (candidates : String → List LinterClass) (o : Orchestrator)
    (stage : String) (ctx : LintContext) : List Mark :=
  .started :: (s.drain candidates o stage ctx).1.flatMap Step.marks

theorem Strategies.drain_holds (s : Strategies) (candidates : String → List LinterClass)
    (o : Orchestrator) (stage : String) (ctx : LintContext) (w : Ledger) :
    (s.drain candidates o stage ctx).2.2.Holds (w.addAll (s.drainMarks candidates o stage ctx)) := by
  have hreset := o.holds_reset
  unfold Strategies.drainMarks
  simp only [Strategies.drain]
  split
  · exact hreset
  · rename_i chosen _
    exact hreset.observeAll (s.trace_isNamed o.reset.ignores stage ctx chosen)

end LintEngine
