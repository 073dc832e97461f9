/-
What an orchestrator has collected. However its runs are opened, pulled in turn, closed or left alone,
the flat list and the groups by linter name both hold exactly what has been delivered since one of its
runs last started (`collected_since_start`): one command preserves this (`Coherent.step`), and so does
any number of them (`Coherent.after`).
-/
import LintEngine.Proofs.Run.Ledger

namespace LintEngine

namespace Session

/-- The marks that a command leaves for one orchestrator. -/
def marks (s : Session) (worker : String) : Command → List Mark
  | .pull run =>
    let (name, r) := s.run run
    let w := s.worker name
    if name = worker then r.pullMarks w.strategies (s.registry name).forLabel w.state else []
  | .drain name stage ctx =>
    let w := s.worker name
    if name = worker then w.strategies.drainMarks (s.registry name).forLabel w.state stage ctx else []
  | _ => []

/-- The marks that commands leave for one orchestrator, in order. -/
def history (s : Session) (worker : String) : List Command → List Mark
  | [] => []
  | c :: cs => s.marks worker c ++ (s.step c).1.history worker cs

/-- The collection of an orchestrator holds a ledger, and the linter that an open run is in goes by its
declared name. -/
structure Coherent (s : Session) (worker : String) (w : Ledger) : Prop where
  holds : (s.worker worker).state.Holds w
  named : ∀ name, (s.run name).2.IsNamed

theorem worker_setRegistry (s : Session) (name : String) (r : Registry) (worker : String) :
    (s.setRegistry name r).worker worker = s.worker worker := by
  unfold setRegistry; split <;> rfl

theorem run_setRegistry (s : Session) (name : String) (r : Registry) (run : String) :
    (s.setRegistry name r).run run = s.run run := by
  unfold setRegistry; split <;> rfl

theorem state_setState (s : Session) (name : String) (o : Orchestrator) (worker : String) :
    ((s.setState name o).worker worker).state = if worker = name then o else (s.worker worker).state := by
  unfold setState Session.worker
  simp only
  rw [OrderedMap.find?_insert]
  split <;> rfl

theorem run_insert (s : Session) (name : String) (r : String × Run) (run : String) :
    Session.run { s with runs := s.runs.insert name r } run = if run = name then r else s.run run := by
  unfold Session.run
  simp only
  rw [OrderedMap.find?_insert]
  split <;> rfl

theorem Coherent.setRegistry {s : Session} {worker : String} {w : Ledger} (h : s.Coherent worker w)
    (name : String) (r : Registry) : (s.setRegistry name r).Coherent worker w where
  holds := by rw [worker_setRegistry]; exact h.holds
  named := by intro run; rw [run_setRegistry]; exact h.named run

/-- A new state of one orchestrator is all that changes; the others keep what they hold. -/
theorem Coherent.setState {s : Session} {worker : String} {w : Ledger} (h : s.Coherent worker w)
    {name : String} {o : Orchestrator} {marks : List Mark}
    (ho : name = worker → o.Holds (w.addAll marks)) :
    (s.setState name o).Coherent worker (w.addAll (if name = worker then marks else [])) where
  holds := by
    rw [state_setState]
    by_cases hn : name = worker
    · rw [if_pos hn.symm, if_pos hn]; exact ho hn
    · rw [if_neg (Ne.symm hn), if_neg hn]; exact h.holds
  named := h.named

theorem Coherent.setRun {s : Session} {worker : String} {w : Ledger} (h : s.Coherent worker w)
    (name : String) {r : String × Run} (hr : r.2.IsNamed) :
    Coherent { s with runs := s.runs.insert name r } worker w where
  holds := h.holds
  named := by
    intro run
    rw [run_insert]
    split
    · exact hr
    · exact h.named run

/-- Every command keeps the collection of an orchestrator in step with its ledger. -/
theorem Coherent.step {s : Session} {worker : String} {w : Ledger} (h : s.Coherent worker w)
    (c : Command) : (s.step c).1.Coherent worker (w.addAll (s.marks worker c)) := by
  -- only pulls and drains leave marks; the others change registries, rules or what is open
  cases c with
  | register name c =>
    unfold Session.step
    simp only
    split
    · exact h.setRegistry name _
    · exact h
  | clear name => exact h.setRegistry name {}
  | snapshot name as => exact ⟨h.holds, h.named⟩
  | restore name «from» stages => exact h.setRegistry name _
  | load name dir cli =>
    have hload : name = worker →
        ((s.worker name).strategies.load (s.worker name).state {} dir cli).2.Holds (w.addAll []) := by
      rintro rfl
      exact ⟨h.holds.issues, h.holds.keys, h.holds.groups, h.holds.declared⟩
    have hset := h.setState hload
    rw [ite_self] at hset
    exact hset
  | «open» run name stage ctx => exact h.setRun run trivial
  | close run => exact h.setRun run trivial
  | pull run =>
    -- the run may belong to another orchestrator, which then is the one that changes
    have hr := h.named run
    simp only [Session.step, marks]
    generalize s.run run = opened at hr ⊢
    obtain ⟨name, r⟩ := opened
    have hpull : name = worker →
        (r.pull (s.worker name).strategies (s.registry name).forLabel (s.worker name).state).2.2.2.Holds
          (w.addAll
            (r.pullMarks (s.worker name).strategies (s.registry name).forLabel (s.worker name).state)) := by
      rintro rfl
      exact Run.pull_holds _ _ h.holds hr
    exact (h.setState hpull).setRun run (Run.pull_isNamed _ _ _ hr)
  | drain name stage ctx =>
    have hdrain : name = worker → _ := fun _ =>
      (s.worker name).strategies.drain_holds (s.registry name).forLabel (s.worker name).state stage ctx w
    exact h.setState hdrain

/-- So does every sequence of commands. -/
theorem Coherent.after {s : Session} {worker : String} {w : Ledger} (h : s.Coherent worker w)
    (commands : List Command) :
    (s.after commands).Coherent worker (w.addAll (s.history worker commands)) := by
  induction commands generalizing s w with
  | nil => exact h
  | cons c cs ih =>
    unfold history
    rw [Ledger.addAll_append]
    exact ih (h.step c)

end Session

/-- Whatever is done in a session, an orchestrator that came into it fresh holds what its runs have
delivered since one of them last started: the list has the issues in order, the groups stand under the
linter names in the order of their first issue, and each group has the issues of its name in order. -/
theorem collected_since_start (s : Session) (worker : String) (strategies : Strategies)
    (ownRegistry : Bool) (ignores : IgnoreConfig) (commands : List Command) :
    let fresh : Worker := { strategies, ownRegistry, state := { ignores } }
    let s : Session := { s with workers := s.workers.insert worker fresh, runs := ∅ }
    let o := ((s.after commands).worker worker).state
    let w := Ledger.addAll [] (s.history worker commands)
    o.issues = w.issues ∧ o.byLinter.keys = w.names ∧
    (∀ name l, (name, l) ∈ o.byLinter.toList → l = w.issuesOf name ∧ l ≠ []) ∧
    ∀ e ∈ w, e.1.linterName.text? = some e.1.declaredName := by
  intro fresh s o w
  have hfresh : (s.worker worker).state = { ignores } := by
    unfold Session.worker
    rw [OrderedMap.find?_insert, if_pos rfl]; rfl
  have hstart : s.Coherent worker [] :=
    ⟨hfresh ▸ Orchestrator.holds_reset { ignores }, fun name => trivial⟩
  have hend := (hstart.after commands).holds
  refine ⟨hend.issues, hend.keys, ?_, hend.declared⟩
  intro name l hl
  have hgroup : l = w.issuesOf name := by
    rw [← hend.groups, OrderedMap.find?_eq_some.2 hl]; rfl
  have hname : name ∈ w.names := by
    rw [← hend.keys]; exact List.mem_map.2 ⟨(name, l), hl, rfl⟩
  exact ⟨hgroup, hgroup ▸ Ledger.issuesOf_ne_nil hname⟩

end LintEngine
