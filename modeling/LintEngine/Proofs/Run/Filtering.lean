/-
The filter of a run has the last word. It is called once for each class, in order, on what the linter of
the class does less what the rules hide; what it reports is delivered and collected as it stands, whatever
the rules say of it (`Strategies.trace_eq_shares`). A filter is said of issues, not of scripts:
`IssueFilter.Reports` ties it to the function of issues that tells what it reports. Main statement:
`filter_has_last_word`.
-/
import LintEngine.Proofs.Command.Stage
import LintEngine.Proofs.Run.Reference

namespace LintEngine

/-! ## Filters as functions of issues -/

/-- What is reported of the issues of a linter, given its class and the input. -/
abbrev IssueFunction := LinterClass → List Issue → LintContext → List Issue

namespace Script

theorem mapIssues_eq (f : Issue → Issue) (script : Script) :
    (script.mapIssues f).issues = script.issues.map f ∧ (script.mapIssues f).fault? = script.fault? := by
  induction script with
  | done => exact ⟨rfl, rfl⟩
  | fail fault => exact ⟨rfl, rfl⟩
  | event e rest ih => exact ih
  | issue i rest ih => exact ⟨congrArg (f i :: ·) ih.1, ih.2⟩

end Script

namespace IssueFilter

/-- From a linter that does not fail the filter reports what a function makes of its issues, and does not
fail either. -/
def Reports (filter : IssueFilter) (f : IssueFunction) : Prop :=
  ∀ c script ctx, Script.fault? script = .none →
    ∃ out, (filter c script ctx).script = .ok out ∧ out.issues = f c script.issues ctx ∧
      out.fault? = .none

/-- Every function of issues is what some filter reports. -/
theorem exists_reports (f : IssueFunction) : ∃ filter : IssueFilter, filter.Reports f := by
  refine ⟨fun c script ctx => .lazy (.ofIssues (f c script.issues ctx)), ?_⟩
  intro c script ctx hfine
  exact ⟨_, rfl, LinterClass.issues_ofIssues _, LinterClass.fault?_ofIssues _⟩

theorem reports_reverse : reverse.Reports fun _ issues _ => issues.reverse := by
  intro c script ctx hfine
  refine ⟨.ofIssues script.issues.reverse, ?_, LinterClass.issues_ofIssues _, LinterClass.fault?_ofIssues _⟩
  simp only [reverse, Script.reversed, hfine]

theorem reports_mapIssues (f : Issue → Issue) :
    (ofScript (Script.mapIssues f)).Reports fun _ issues _ => issues.map f := by
  intro c script ctx hfine
  obtain ⟨hissues, hend⟩ := script.mapIssues_eq f
  exact ⟨script.mapIssues f, rfl, hissues, hend.trans hfine⟩

/-- Of two filters the second one sees what the first reports. -/
theorem Reports.andThen {first second : IssueFilter} {f g : IssueFunction} (hf : first.Reports f)
    (hg : second.Reports g) :
    (first.andThen second).Reports fun c issues ctx => g c (f c issues ctx) ctx := by
  intro c script ctx hfine
  obtain ⟨between, hfirst, hbetween, hfine'⟩ := hf c script ctx hfine
  obtain ⟨out, hsecond, hout, hend⟩ := hg c between ctx hfine'
  refine ⟨out, ?_, ?_, hend⟩
  · simp only [IssueFilter.andThen, hfirst, hsecond]
  · rw [hout, hbetween]

/-- The filter that tells of each call of another one, with the issues that the call is given. -/
def announcing (announce : LinterClass → List Issue → LintContext → Event) (filter : IssueFilter) :
    IssueFilter := fun c script ctx =>
  let opening := filter c script ctx
  { opening with events := announce c script.issues ctx :: opening.events }

end IssueFilter

/-! ## The share of one class -/

/-- The issues that the linter of a class emits and rules do not hide. -/
def LinterClass.shown (rules : IgnoreConfig) (ctx : LintContext) (c : LinterClass) : List Issue :=
  (c.emitted ctx).filter (rules.shows c.declaredName)

/-- All that comes of an opening: what happens at once, then the steps of its script. -/
def Opening.steps (producer : Producer) (opening : Opening) : List Step :=
  opening.events.map .event ++
    match opening.script with
    | .error _ => []
    | .ok script => script.steps producer

namespace Strategies

/-- What the filter makes of what the linter of a class does, less what rules hide. -/
def filtered (s : Strategies) (rules : IgnoreConfig) (ctx : LintContext) (c : LinterClass) : Opening :=
  match (c.call ctx).script with
  | .error fault => { script := .error fault }
  | .ok script => s.filter c (script.hideIssues (rules.hides c.declaredName)) ctx

/-- What a class adds to a run. -/
def share (s : Strategies) (rules : IgnoreConfig) (stage : String) (ctx : LintContext)
    (c : LinterClass) : List Step :=
  (s.opened stage ctx c).map .event ++ (s.filtered rules ctx c).steps ⟨c, c.declaredName⟩

/-- The strategies whose filter tells of each call. -/
def announcing (s : Strategies) (announce : LinterClass → List Issue → LintContext → Event) :
    Strategies :=
  { s with filter := s.filter.announcing announce }

end Strategies

namespace LinterClass

/-- A class that comes to no fault may be used, and its linter does all of its script. -/
theorem exists_of_fault?_eq_none {ctx : LintContext} {c : LinterClass} (h : c.fault? ctx = none) :
    ∃ name declared script, c.validate = .ok (name, declared) ∧ c.declaredName = name ∧
      (c.call ctx).script = .ok script ∧ script.fault? = none := by
  unfold fault? at h
  cases hvalid : c.validate with
  | error fault => rw [hvalid] at h; cases h
  | ok p =>
    obtain ⟨name, declared⟩ := p
    cases hscript : (c.call ctx).script with
    | error fault => rw [hvalid, hscript] at h; cases h
    | ok script =>
      rw [hvalid, hscript] at h
      exact ⟨name, declared, script, rfl, declaredName_of_validate hvalid, rfl, h⟩

theorem text?_linterName_of_fault?_eq_none {ctx : LintContext} {c : LinterClass}
    (h : c.fault? ctx = none) : c.linterName.text? = some c.declaredName := by
  obtain ⟨name, declared, script, hvalid, hname, -, -⟩ := exists_of_fault?_eq_none h
  rw [hname]
  exact text?_linterName_of_validate hvalid

end LinterClass

section Share

variable {rules : IgnoreConfig}

/-- The issues that rules leave of a script. -/
theorem Script.issues_hideIssues (h : rules.Compiles) (name : String) (script : Script) :
    (script.hideIssues (rules.hides name)).issues = script.issues.filter (rules.shows name) := by
  obtain ⟨hsteps, -⟩ := Script.hideIssues_eq h ⟨default, name⟩ script
  rw [← Script.issuesOf_steps ⟨default, name⟩, hsteps, Session.issuesOf_eq, Session.deliveriesOf_filter,
    Script.deliveriesOf_steps, List.filter_map, List.map_map]
  exact List.map_id _

namespace Strategies

variable {s : Strategies} {f : IssueFunction} {ctx : LintContext} {c : LinterClass}

/-- The filter is called on the issues shown, and what it reports is the function's. -/
theorem filtered_spec (h : rules.Compiles) (hf : s.filter.Reports f) (hfine : c.fault? ctx = none) :
    ∃ out, (s.filtered rules ctx c).script = .ok out ∧ out.issues = f c (c.shown rules ctx) ctx ∧
      out.fault? = none := by
  obtain ⟨name, declared, script, hvalid, -, hscript, hend⟩ := LinterClass.exists_of_fault?_eq_none hfine
  obtain ⟨-, hkept⟩ := Script.hideIssues_eq h ⟨c, c.declaredName⟩ script
  have hemitted : c.emitted ctx = script.issues := by
    unfold LinterClass.emitted
    rw [hvalid, hscript]
  obtain ⟨out, hout, hissues, hfault⟩ :=
    hf c (script.hideIssues (rules.hides c.declaredName)) ctx (hkept.trans hend)
  refine ⟨out, ?_, ?_, hfault⟩
  · unfold filtered
    rw [hscript]
    exact hout
  · rw [hissues, Script.issues_hideIssues h, LinterClass.shown, hemitted]

/-- A filter that tells of its calls tells of one call for a class, on the issues shown. -/
theorem filtered_announcing (h : rules.Compiles) (hfine : c.fault? ctx = none)
    (announce : LinterClass → List Issue → LintContext → Event) :
    (s.announcing announce).filtered rules ctx c =
      { s.filtered rules ctx c with
        events := announce c (c.shown rules ctx) ctx :: (s.filtered rules ctx c).events } := by
  obtain ⟨name, declared, script, hvalid, -, hscript, -⟩ := LinterClass.exists_of_fault?_eq_none hfine
  have hshown : c.shown rules ctx = (script.hideIssues (rules.hides c.declaredName)).issues := by
    rw [Script.issues_hideIssues h, LinterClass.shown, LinterClass.emitted, hvalid, hscript]
  unfold filtered
  rw [hscript, hshown]
  rfl

theorem share_announcing (h : rules.Compiles) {stage : String} (hfine : c.fault? ctx = none)
    (announce : LinterClass → List Issue → LintContext → Event) :
    (s.announcing announce).share rules stage ctx c = (s.opened stage ctx c).map .event ++
      .event (announce c (c.shown rules ctx) ctx) ::
        (s.filtered rules ctx c).steps ⟨c, c.declaredName⟩ := by
  rw [share, filtered_announcing h hfine]
  rfl

/-- The run of classes that come to no fault is made up of their shares, in order. -/
theorem trace_eq_shares (h : rules.Compiles) (hf : s.filter.Reports f) (stage : String)
    {classes : List LinterClass} (hfine : ∀ c ∈ classes, c.fault? ctx = none) :
    s.trace rules stage ctx classes = (classes.flatMap (s.share rules stage ctx), none) := by
  induction classes with
  | nil => rfl
  | cons c cs ih =>
    obtain ⟨hc, hcs⟩ := List.forall_mem_cons.1 hfine
    obtain ⟨name, declared, script, hvalid, hname, hscript, -⟩ := LinterClass.exists_of_fault?_eq_none hc
    obtain ⟨out, hout, -, hend⟩ := filtered_spec h hf hc
    have hshare : s.share rules stage ctx c =
        (s.opened stage ctx c ++ (s.filtered rules ctx c).events).map .event ++
          out.steps ⟨c, c.declaredName⟩ := by
      rw [share, Opening.steps, hout, List.map_append, List.append_assoc]
    have hstart : s.start rules stage ctx c =
        (s.opened stage ctx c ++ (s.filtered rules ctx c).events, .ok (⟨c, c.declaredName⟩, out)) := by
      unfold filtered at hout ⊢
      rw [hscript] at hout ⊢
      simp only at hout ⊢
      rw [start, hvalid, opened]
      simp only [hscript, ← hname, hout]
    rw [trace, hstart]
    simp only [hend, ih hcs, List.flatMap_cons, hshare]

theorem deliveriesOf_share (h : rules.Compiles) (hf : s.filter.Reports f) (stage : String)
    (hfine : c.fault? ctx = none) : Session.deliveriesOf (s.share rules stage ctx c) =
      (f c (c.shown rules ctx) ctx).map (c.declaredName, ·) := by
  obtain ⟨out, hout, hissues, -⟩ := filtered_spec h hf hfine
  rw [share, Opening.steps, hout]
  simp [Script.deliveriesOf_steps, hissues]

theorem deliveriesOf_shares (h : rules.Compiles) (hf : s.filter.Reports f) (stage : String)
    {classes : List LinterClass} (hfine : ∀ c ∈ classes, c.fault? ctx = none) :
    Session.deliveriesOf (classes.flatMap (s.share rules stage ctx)) =
      classes.flatMap fun c => (f c (c.shown rules ctx) ctx).map (c.declaredName, ·) := by
  unfold Session.deliveriesOf
  rw [List.filterMap_flatMap]
  exact List.flatMap_congr fun c hc => deliveriesOf_share h hf stage (hfine c hc)

end Strategies

end Share

/-! ## What is collected -/

namespace Orchestrator

/-- Taking down what classes deliver, each under its name, keeps the collection in step with the
ledger. -/
theorem Holds.recordAll {o : Orchestrator} {w : Ledger} (h : o.Holds w) {l : Ledger} (hl : l.Declared) :
    (o.recordAll (l.map fun e => (e.1.declaredName, e.2))).Holds (w ++ l) := by
  induction l generalizing o w with
  | nil => rw [List.append_nil]; exact h
  | cons e l ih =>
    obtain ⟨he, hrest⟩ := List.forall_mem_cons.1 hl
    have hnamed : Producer.IsNamed ⟨e.1, e.1.declaredName⟩ := he
    rw [List.append_cons]
    exact ih (h.record hnamed e.2) hrest

end Orchestrator

/-- Whatever a filter reports is what a run delivers. Of classes that may be used and come to no fault,
the filter is called for one after the other, once for each and before anything else that it does, on just
those issues that the linter emits and the rules in effect do not hide. What it reports is delivered, and
collected under the name of the class, in the order in which it is reported; the rules have no further
say, and neither do the issues that the linters emitted. -/
theorem filter_has_last_word (s : Strategies) (f : IssueFunction) (registry : Registry)
    (o : Orchestrator) (stage : String) (ctx : LintContext) (chosen : List LinterClass)
    (hselect : s.select stage ctx (registry.forLabel stage) = .ok chosen)
    (hfine : ∀ c ∈ chosen, c.fault? ctx = none) (hglobs : o.ignores.Compiles)
    (hfilter : s.filter.Reports f) :
    let shown := LinterClass.shown o.ignores ctx
    let reported := fun c => f c (shown c) ctx
    let w : Ledger := chosen.flatMap fun c => (reported c).map (c, ·)
    let drained := s.drain registry.forLabel o stage ctx
    let pulls := fun n => (Run.waiting stage ctx).pulls s registry.forLabel n o
    drained.1 = chosen.flatMap (s.share o.ignores stage ctx) ∧
    (∀ announce, ((s.announcing announce).drain registry.forLabel o stage ctx).1 =
      chosen.flatMap fun c => (s.opened stage ctx c).map .event ++
        .event (announce c (shown c) ctx) :: (s.filtered o.ignores ctx c).steps ⟨c, c.declaredName⟩) ∧
    drained.2.1 = none ∧
    Session.deliveriesOf drained.1 =
      chosen.flatMap (fun c => (reported c).map (c.declaredName, ·)) ∧
    (∀ n, (pulls n).answers = Pulled.sequence none (chosen.flatMap reported) n ∧
      (w.length < n → (pulls n).state = drained.2.2)) ∧
    (drained.2.2.issues = chosen.flatMap reported ∧ drained.2.2.byLinter.keys = w.names ∧
      ∀ name, (drained.2.2.byLinter.find? name).getD [] = w.issuesOf name) ∧
    drained.2.2.highest? = Severity.highest? ((chosen.flatMap reported).map Issue.severity) ∧
    (drained.2.2.summary = .error ↔ ∃ c ∈ chosen, ∃ i ∈ reported c, i.severity = .error) := by
  intro shown reported w drained pulls
  have htrace := Strategies.trace_eq_shares hglobs hfilter stage hfine
  have hw : w.map (fun e => (e.1.declaredName, e.2)) =
      chosen.flatMap fun c => (reported c).map (c.declaredName, ·) := by
    simp [w, List.map_flatMap, Function.comp_def]
  have hdelivered := Strategies.deliveriesOf_shares hglobs hfilter stage hfine
  have hdrained : drained = _ := Strategies.drain_eq hselect o
  rw [htrace, hdelivered, ← hw] at hdrained
  have hdeclared : w.Declared := by
    intro e he
    obtain ⟨c, hc, hmem⟩ := List.mem_flatMap.1 he
    obtain ⟨i, -, rfl⟩ := List.mem_map.1 hmem
    exact LinterClass.text?_linterName_of_fault?_eq_none (hfine c hc)
  have hholds : drained.2.2.Holds w := by
    rw [hdrained]
    exact (Orchestrator.holds_reset o).recordAll hdeclared
  have hissues : drained.2.2.issues = chosen.flatMap reported := by
    rw [hholds.issues, Ledger.issues]
    simp [w, List.map_flatMap, Function.comp_def]
  refine ⟨congrArg Prod.fst hdrained, ?_, congrArg (·.2.1) hdrained, ?_, ?_,
    ⟨hissues, hholds.keys, hholds.groups⟩, ?_, ?_⟩
  · intro announce
    have hselect' : (s.announcing announce).select stage ctx (registry.forLabel stage) = .ok chosen := hselect
    have htrace' := Strategies.trace_eq_shares (s := s.announcing announce) hglobs hfilter stage hfine
    rw [Strategies.drain_eq hselect' o, htrace']
    exact List.flatMap_congr fun c hc => Strategies.share_announcing hglobs (hfine c hc) announce
  · rw [hdrained]
    exact hdelivered
  · intro n
    obtain ⟨-, hanswers, hstate⟩ := Run.pulls_waiting (o := o) hselect n
    rw [htrace, hdelivered, ← hw] at hanswers hstate
    refine ⟨hanswers.trans ?_, fun hn => hstate.trans ?_⟩
    · rw [← hissues, hholds.issues, Ledger.issues, List.map_map]; rfl
    · have hpos : n ≠ 0 := Nat.ne_of_gt (Nat.zero_lt_of_lt hn)
      rw [if_neg hpos, List.take_of_length_le (by rw [List.length_map]; exact Nat.le_of_lt hn), hdrained]
  · rw [Orchestrator.highest?, hissues]
  · rw [Orchestrator.summary_eq_error_iff, hissues]
    simp only [List.mem_flatMap]
    constructor
    · rintro ⟨i, ⟨c, hc, hi⟩, herror⟩
      exact ⟨c, hc, i, hi, herror⟩
    · rintro ⟨c, hc, i, hi, herror⟩
      exact ⟨i, ⟨c, hc, hi⟩, herror⟩

/-- Classes that go by one name, the first of them twice, under a filter that turns the order round and
gives every issue the id that the rules hide. The issue that had this id to begin with does not get through,
the others do, and are errors now. -/
theorem filter_has_last_word_on_hidden_id :
    let linter := fun (key : String) (issues : List Issue) =>
      ({ own := { key, linterName := some (.text "docs"), stage := some (.text "pre"),
                  run := .method fun _ => .lazy (.ofIssues issues) } } : LinterClass)
    let issue := fun (id message : String) (severity : Severity) =>
      (⟨id, message, severity, "", ""⟩ : Issue)
    let first := linter "first" [issue "A" "a" .error, issue "B" "b" .info, issue "C" "c" .warning]
    let second := linter "second" [issue "B" "d" .info]
    let raised := fun i : Issue => { i with id := "A", severity := .error }
    let s : Strategies := { filter := IssueFilter.reverse.andThen (.ofScript (.mapIssues raised)) }
    let registry : Registry := { pre := [first, second, first] }
    let o : Orchestrator := { ignores := .ofRules [⟨"docs", "A", none⟩], issues := [issue "old" "" .info] }
    let drained := s.drain registry.forLabel o "pre" default
    drained.2.2.issues = [issue "A" "c" .error, issue "A" "b" .error, issue "A" "d" .error,
        issue "A" "c" .error, issue "A" "b" .error] ∧
      drained.2.2.byLinter.keys = ["docs"] ∧ drained.2.2.summary = .error := by
  intro linter issue first second raised s registry o drained
  have hfilter := IssueFilter.reports_reverse.andThen (IssueFilter.reports_mapIssues raised)
  obtain ⟨-, -, -, -, -, ⟨hissues, hkeys, -⟩, -, hsummary⟩ :=
    filter_has_last_word s _ registry o "pre" default [first, second, first] rfl (by decide +kernel)
      (by decide) hfilter
  refine ⟨hissues.trans (by decide +kernel), hkeys.trans (by decide +kernel), hsummary.2 ?_⟩
  exact ⟨second, by simp, issue "A" "d" .error, by decide +kernel, rfl⟩

end LintEngine
