/-
More ignore rules only hide more. With the default filter, linters do the same under all rules and come
to the same fault; the rules only take issues out of what they do (`drain_eq_activities`). So a run under
additional rules delivers what it delivered without them, less what these hide, and an exit status can
only fall from that of an error to that of none. Main statement: `added_rules_only_hide`.
-/
import LintEngine.Proofs.Command.Stage
import LintEngine.Proofs.Ignore.Layers
import LintEngine.Proofs.Run.Reference

namespace LintEngine

/-! ## Runs under different rules -/

namespace Strategies

/-- The classes that a run gets to: of those that it chooses, the ones up to the first that comes to a
fault. -/
def reached (s : Strategies) (candidates : String → List LinterClass) (stage : String)
    (ctx : LintContext) : List LinterClass :=
  match s.select stage ctx (candidates stage) with
  | .error _ => []
  | .ok chosen => LinterClass.begun ctx chosen

/-- The fault that ends a run: that of the choice, or of the first class that comes to one. -/
def fault? (s : Strategies) (candidates : String → List LinterClass) (stage : String)
    (ctx : LintContext) : Option Fault :=
  match s.select stage ctx (candidates stage) with
  | .error fault => some fault
  | .ok chosen => chosen.findSome? (LinterClass.fault? ctx)

/-- All that the linters of a run do, hidden issues included. -/
def activities (s : Strategies) (candidates : String → List LinterClass) (stage : String)
    (ctx : LintContext) : List Step :=
  (s.reached candidates stage ctx).flatMap (s.activity stage ctx)

/-- The rules under which a run is drained have no say but in which issues can be seen. -/
theorem drain_eq_activities {s : Strategies} (hfilter : s.filter = IssueFilter.keepAll)
    (candidates : String → List LinterClass) (stage : String) (ctx : LintContext) {o : Orchestrator}
    (hglobs : o.ignores.Compiles) :
    let steps := (s.activities candidates stage ctx).filter (Step.isShown o.ignores)
    s.drain candidates o stage ctx =
      (steps, s.fault? candidates stage ctx, o.reset.recordAll (Session.deliveriesOf steps)) := by
  unfold activities reached fault?
  cases hselect : s.select stage ctx (candidates stage) with
  | error fault => rw [drain, hselect]; rfl
  | ok chosen =>
    intro steps
    have htrace := s.trace_eq hfilter hglobs stage ctx chosen
    have hdrain := s.drain_eq hselect o
    rw [htrace] at hdrain
    exact hdrain

end Strategies

/-! ## Added rules -/

/-- Rules show just what both of two sets of rules show. -/
def IgnoreConfig.ShowsBoth (both plain extra : IgnoreConfig) : Prop :=
  ∀ linter issue, both.shows linter issue = (plain.shows linter issue && extra.shows linter issue)

theorem IgnoreConfig.showsBoth_of_hides {both plain extra : IgnoreConfig} (hboth : both.Compiles)
    (hplain : plain.Compiles) (hextra : extra.Compiles)
    (h : ∀ linter issue, both.Hides linter issue ↔
      plain.Hides linter issue ∨ extra.Hides linter issue) : both.ShowsBoth plain extra := by
  intro linter issue
  rw [Bool.eq_iff_iff, Bool.and_eq_true, shows_iff hboth, shows_iff hplain, shows_iff hextra, h, not_or]

section ShowsBoth

variable {both plain extra : IgnoreConfig} (h : both.ShowsBoth plain extra)

include h

theorem filter_isShown_both (steps : List Step) : steps.filter (Step.isShown both) =
    (steps.filter (Step.isShown plain)).filter (Step.isShown extra) := by
  rw [List.filter_filter]
  refine List.filter_congr fun step _ => ?_
  cases step with
  | event e => rfl
  | issue producer i => exact (h producer.name i).trans (Bool.and_comm ..)

/-- Under added rules a run delivers what it delivers without them, less what they hide. -/
theorem Strategies.drain_showsBoth {s : Strategies} (hfilter : s.filter = IssueFilter.keepAll)
    (candidates : String → List LinterClass) (stage : String) (ctx : LintContext) (o o' : Orchestrator)
    (ho : o.ignores = plain) (ho' : o'.ignores = both) (hplain : plain.Compiles)
    (hboth : both.Compiles) :
    let p := s.drain candidates o stage ctx
    let q := s.drain candidates o' stage ctx
    q.1 = p.1.filter (Step.isShown extra) ∧ q.2.1 = p.2.1 ∧
      q.2.2.issues = ((Session.deliveriesOf p.1).filter fun d => extra.shows d.1 d.2).map Prod.snd ∧
      q.2.2.issues.Sublist p.2.2.issues := by
  intro p q
  have hp : p = _ := drain_eq_activities hfilter candidates stage ctx (ho ▸ hplain)
  have hq : q = _ := drain_eq_activities hfilter candidates stage ctx (ho' ▸ hboth)
  rw [ho] at hp
  rw [ho', filter_isShown_both h] at hq
  have hissues : q.2.2.issues =
      ((Session.deliveriesOf p.1).filter fun d => extra.shows d.1 d.2).map Prod.snd := by
    rw [hq, hp, Orchestrator.issues_recordAll, Session.deliveriesOf_filter]; rfl
  refine ⟨by rw [hq, hp], by rw [hq, hp], hissues, ?_⟩
  have hall : p.2.2.issues = (Session.deliveriesOf p.1).map Prod.snd := by
    rw [hp, Orchestrator.issues_recordAll]; rfl
  rw [hissues, hall]
  exact List.filter_sublist.map Prod.snd

end ShowsBoth

/-- The strategies, the classes and the files may be any: rules that are added to those in effect only
hide. The same classes are gone through, with the same effects and the same fault at the end; what is
delivered are the issues that were delivered without the added rules, less those that these hide. So the
highest severity does not rise, and the exit status stays or falls from 2 to 0, also when the rules are
added to those of the command line. -/
theorem added_rules_only_hide (setup : LintSetup) (stage : String) (ctx : LintContext)
    (plain stricter : Orchestrator) (extra : IgnoreConfig)
    (hfilter : setup.strategies.filter = IssueFilter.keepAll) (hplain : plain.ignores.Compiles)
    (hextra : extra.Compiles) (hrules : stricter.ignores = plain.ignores.merge extra) :
    let s := setup.strategies
    let p := s.drain setup.candidates plain stage ctx
    let q := s.drain setup.candidates stricter stage ctx
    let activities := s.activities setup.candidates stage ctx
    (p.1 = activities.filter (Step.isShown plain.ignores) ∧
      q.1 = activities.filter (Step.isShown stricter.ignores) ∧
      Session.eventsOf p.1 = Session.eventsOf activities ∧
      Session.eventsOf q.1 = Session.eventsOf activities) ∧
    q.2.1 = p.2.1 ∧
    q.1 = p.1.filter (Step.isShown extra) ∧
    q.2.2.issues = ((Session.deliveriesOf p.1).filter fun d => extra.shows d.1 d.2).map Prod.snd ∧
    (∀ severity, q.2.2.highest? = some severity →
      ∃ higher, p.2.2.highest? = some higher ∧ severity.rank ≤ higher.rank) ∧
    (Report.exitStatus q.2.2.highest? = Report.exitStatus p.2.2.highest? ∨
      Report.exitStatus p.2.2.highest? = 2 ∧ Report.exitStatus q.2.2.highest? = 0) ∧
    ∀ (o : Orchestrator) (r : StageRequest),
      (s.projectIgnores r.ctx.files r.ctx.projectDir).2.Compiles → r.cliIgnores.Compiles →
      let before := (setup.runStage o r).result
      let after := (setup.runStage o { r with cliIgnores := r.cliIgnores.merge extra }).result
      after = before ∨ before = .ok 2 ∧ after = .ok 0 := by
  intro s p q activities
  have hstricter : stricter.ignores.Compiles := hrules ▸ hplain.merge hextra
  have hboth : stricter.ignores.ShowsBoth plain.ignores extra := by
    refine IgnoreConfig.showsBoth_of_hides hstricter hplain hextra fun linter issue => ?_
    rw [hrules, IgnoreConfig.hides_merge]
  have hp : p = _ := Strategies.drain_eq_activities hfilter setup.candidates stage ctx hplain
  have hq : q = _ := Strategies.drain_eq_activities hfilter setup.candidates stage ctx hstricter
  obtain ⟨hsteps, hfault, hissues, hsub⟩ :=
    Strategies.drain_showsBoth hboth hfilter setup.candidates stage ctx plain stricter rfl rfl hplain
      hstricter
  refine ⟨⟨by rw [hp], by rw [hq], by rw [hp]; exact eventsOf_filter_isShown ..,
    by rw [hq]; exact eventsOf_filter_isShown ..⟩, hfault, hsteps, hissues,
    fun severity hs => Orchestrator.highest?_mono hsub hs, Orchestrator.exitStatus_mono hsub, ?_⟩
  intro o r hproject hcli before after
  let r' : StageRequest := { r with cliIgnores := r.cliIgnores.merge extra }
  have hold : (setup.rulesOf r).Compiles := IgnoreConfig.compiles_rulesFor hproject hcli
  have hnew : (setup.rulesOf r').Compiles := IgnoreConfig.compiles_rulesFor hproject (hcli.merge hextra)
  have hadded : (setup.rulesOf r').ShowsBoth (setup.rulesOf r) extra := by
    refine IgnoreConfig.showsBoth_of_hides hnew hold hextra fun linter issue => ?_
    have hlayers : (setup.rulesOf r').Hides linter issue ↔ _ := IgnoreConfig.hides_rulesFor
    have hlayers' : (setup.rulesOf r).Hides linter issue ↔ _ := IgnoreConfig.hides_rulesFor
    rw [hlayers, hlayers', IgnoreConfig.hides_merge, or_assoc]
  obtain ⟨-, hend, -, hfewer⟩ := Strategies.drain_showsBoth hadded hfilter setup.candidates r.stage.label
    r.ctx { o with ignores := setup.rulesOf r } { o with ignores := setup.rulesOf r' } rfl rfl hold hnew
  have hbefore : before = _ := setup.result_runStage o r
  have hafter : after = LintSetup.ending (setup.drained o r).2.1 _ :=
    (setup.result_runStage o r').trans (congrArg (LintSetup.ending · _) hend)
  rw [hafter, hbefore]
  cases (setup.drained o r).2.1 with
  | some fault => exact .inl rfl
  | none =>
    refine (Orchestrator.exitStatus_mono hfewer).imp (congrArg Except.ok) fun hfall => ?_
    exact ⟨congrArg Except.ok hfall.1, congrArg Except.ok hfall.2⟩

/-- The only error of a run is hidden by one more rule, which leaves the warning of the second linter. -/
theorem added_rules_hide_last_error :
    let linter := fun (key : String) (issues : List Issue) =>
      ({ own := { key, linterName := some (.text key), stage := some (.text "pre"),
                  run := .method fun _ => .lazy (.ofIssues issues) } } : LinterClass)
    let error : Issue := ⟨"A", "", .error, "x.md", ""⟩
    let warning : Issue := ⟨"A", "", .warning, "x.md", ""⟩
    let classes := [linter "first" [error, ⟨"B", "", .error, "", ""⟩], linter "second" [warning]]
    let setup : LintSetup :=
      { formats := ⟨fun _ => .error .document, fun _ => none⟩, strategies := {}
        candidates := fun _ => classes }
    let plain : Orchestrator := { ignores := .ofRules [⟨"first", "B", none⟩] }
    let extra := IgnoreConfig.ofRules [⟨"first", "A", some "*.md"⟩]
    let stricter : Orchestrator := { ignores := plain.ignores.merge extra, issues := [error] }
    let p := setup.strategies.drain setup.candidates plain "pre" default
    let q := setup.strategies.drain setup.candidates stricter "pre" default
    p.2.2.issues = [error, warning] ∧ q.2.2.issues = [warning] ∧
      Report.exitStatus p.2.2.highest? = 2 ∧ Report.exitStatus q.2.2.highest? = 0 := by
  intro linter error warning classes setup plain extra stricter p q
  obtain ⟨-, -, -, hissues, -, hstatus, -⟩ :=
    added_rules_only_hide setup "pre" default plain stricter extra rfl (by decide) (by decide) rfl
  have hfall := hstatus.resolve_left (by decide +kernel)
  exact ⟨by decide +kernel, hissues.trans (by decide +kernel), hfall⟩

end LintEngine
