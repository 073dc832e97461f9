/-
Registries over a whole history. Orchestrators without a registry of their own use one shared
registry, the others one each, and whatever commands a session has carried out, a registry holds of a
stage what it was last set to, followed by the classes of the stage that were registered with it since
(`registries_of_history`). A command does one of three things to a registry: it sets it anew
(`registry_step_clear`, `registry_step_restore`), it puts classes behind those that are there
(`forStage_step_kept`), or it has nothing to do with it (`registry_step_other`).
-/
import LintEngine.Proofs.Run.Isolation
import Mathlib.Data.List.Induction

namespace LintEngine

namespace Registry

/-- The classes may all be used, and each is kept under the stage that it declares. -/
def IsValid (r : Registry) : Prop :=
  ∀ stage, ∀ c ∈ r.forStage stage, ∃ name, c.validate = .ok (name, stage)

theorem isValid_empty : IsValid {} := by
  intro stage c hc
  rw [forStage_empty] at hc
  cases hc

theorem IsValid.append {r : Registry} (h : r.IsValid) {c : LinterClass} {name : String} {stage : Stage}
    (hc : c.validate = .ok (name, stage)) : (r.append stage c).IsValid := by
  intro stage' d hd
  rw [forStage_append] at hd
  rcases List.mem_append.1 hd with hold | hnew
  · exact h stage' d hold
  · split at hnew
    · rename_i hstage
      cases List.mem_singleton.1 hnew
      exact ⟨name, hstage ▸ hc⟩
    · cases hnew

theorem IsValid.restrict {r : Registry} (h : r.IsValid) (stages : List String) :
    (r.restrict stages).IsValid := by
  intro stage c hc
  rw [forStage_restrict] at hc
  split at hc
  · exact h stage c hc
  · cases hc

end Registry

namespace Command

/-- The orchestrator whose registry a command sets anew. -/
def resets? : Command → Option String
  | .clear name | .restore name _ _ => some name
  | _ => none

/-- The orchestrator whose registry a command changes. -/
def changes? : Command → Option String
  | .register name _ | .clear name | .restore name _ _ => some name
  | _ => none

/-- Whether a command takes a snapshot under a name. -/
def takes (as : String) : Command → Bool
  | .snapshot _ name => name = as
  | _ => false

end Command

namespace Session

variable {s : Session} {name worker : String} {c : Command} {commands : List Command}

/-- Two orchestrators use one registry. -/
def SharesRegistry (s : Session) (a b : String) : Prop :=
  a = b ∨ (s.worker a).ownRegistry = false ∧ (s.worker b).ownRegistry = false

instance (s : Session) (a b : String) : Decidable (s.SharesRegistry a b) :=
  inferInstanceAs (Decidable (_ ∨ _))

/-- A command sets the registry of an orchestrator anew. -/
def Resets (s : Session) (worker : String) (c : Command) : Prop :=
  ∃ name ∈ c.resets?, s.SharesRegistry name worker

instance (s : Session) (worker : String) (c : Command) : Decidable (s.Resets worker c) :=
  inferInstanceAs (Decidable (∃ name ∈ c.resets?, s.SharesRegistry name worker))

/-- A snapshot by name; one that was never taken has no classes. -/
def snapshot (s : Session) (name : String) : Registry :=
  (s.snapshots.find? name).getD {}

/-- The classes of a stage that a command registers with the registry of an orchestrator: one that may
be used and declares the stage, or none. -/
def registered (s : Session) (worker : String) (stage : Stage) : Command → List LinterClass
  | .register name c =>
    match c.validate with
    | .ok (_, declared) => if s.SharesRegistry name worker ∧ declared = stage then [c] else []
    | .error _ => []
  | _ => []

/-- What the registry of an orchestrator held of a stage when commands last set it anew, and the
commands that came behind. -/
inductive LastSet (s : Session) (worker : String) (stage : Stage) (commands : List Command) :
    List LinterClass → List Command → Prop
  | never (kept : ∀ c ∈ commands, ¬s.Resets worker c) : LastSet s worker stage commands [] commands
  | cleared {front back : List Command} {name : String}
      (split : commands = front ++ .clear name :: back) (shared : s.SharesRegistry name worker)
      (kept : ∀ c ∈ back, ¬s.Resets worker c) : LastSet s worker stage commands [] back
  | restored {front back : List Command} {name as : String} {stages : List String}
      (split : commands = front ++ .restore name as stages :: back)
      (shared : s.SharesRegistry name worker) (kept : ∀ c ∈ back, ¬s.Resets worker c) :
      LastSet s worker stage commands
        (if stage.label ∈ stages then ((s.after front).snapshot as).forStage stage else []) back

/-! ## Who shares a registry with whom -/

/-- No command gives an orchestrator a registry of its own or takes it away. -/
theorem sharesRegistry_step (s : Session) (c : Command) :
    (s.step c).1.SharesRegistry = s.SharesRegistry := by
  unfold SharesRegistry
  simp only [worker_step]

theorem sharesRegistry_after (s : Session) (commands : List Command) :
    (s.after commands).SharesRegistry = s.SharesRegistry := by
  induction commands generalizing s with
  | nil => rfl
  | cons c cs ih => exact (ih (s.step c).1).trans (sharesRegistry_step s c)

theorem resets_after (s : Session) (commands : List Command) :
    (s.after commands).Resets = s.Resets := by
  unfold Resets
  rw [sharesRegistry_after]

theorem registered_after (s : Session) (commands : List Command) :
    (s.after commands).registered = s.registered := by
  funext worker stage d
  unfold registered
  simp only [sharesRegistry_after]

theorem resets_step (s : Session) (c : Command) : (s.step c).1.Resets = s.Resets :=
  s.resets_after [c]

theorem registered_step (s : Session) (c : Command) : (s.step c).1.registered = s.registered :=
  s.registered_after [c]

theorem after_append_cons (s : Session) (front back : List Command) (c : Command) :
    s.after (front ++ c :: back) = ((s.after front).step c).1.after back := by
  unfold after
  rw [List.foldl_append, List.foldl_cons]

/-! ## What a command does to a registry -/

theorem sharesRegistry_of_own {a : String} (h : (s.worker a).ownRegistry = true) (b : String) :
    s.SharesRegistry a b ↔ a = b := by
  unfold SharesRegistry
  simp [h]

theorem sharesRegistry_of_shared {a : String} (h : (s.worker a).ownRegistry = false) (b : String) :
    s.SharesRegistry a b ↔ (s.worker b).ownRegistry = false := by
  refine ⟨?_, fun hb => Or.inr ⟨h, hb⟩⟩
  rintro (rfl | ⟨-, hb⟩)
  · exact h
  · exact hb

theorem SharesRegistry.registry_eq {a b : String} (h : s.SharesRegistry a b) :
    s.registry a = s.registry b := by
  rcases h with rfl | ⟨ha, hb⟩
  · rfl
  · unfold registry
    rw [ha, hb]; rfl

theorem registry_setRegistry (s : Session) (name : String) (r : Registry) (worker : String) :
    (s.setRegistry name r).registry worker =
      if s.SharesRegistry name worker then r else s.registry worker := by
  unfold registry
  rw [worker_setRegistry]
  unfold setRegistry
  cases hname : (s.worker name).ownRegistry with
  | true =>
    simp only [sharesRegistry_of_own hname, if_true, OrderedMap.find?_insert, eq_comm (a := worker)]
    by_cases h : name = worker
    · subst h; simp [hname]
    · simp [h]
  | false =>
    simp only [sharesRegistry_of_shared hname]
    cases (s.worker worker).ownRegistry <;> rfl

/-- A new state of an orchestrator leaves the registries as they are. -/
theorem registry_setState (s : Session) (name : String) (o : Orchestrator) (worker : String) :
    (s.setState name o).registry worker = s.registry worker := by
  have hworker := s.worker_setState name worker fun _ => o
  unfold registry
  rw [hworker]; rfl

theorem step_register_ok (s : Session) (worker : String) {c : LinterClass} {name : String}
    {stage : Stage} (h : c.validate = .ok (name, stage)) :
    s.step (.register worker c) =
      (s.setRegistry worker ((s.registry worker).append stage c), [], .nothing) := by
  simp only [step, Registry.register, h]

/-- A class that may not be used changes nothing in a session. -/
theorem step_register_error (s : Session) (worker : String) {c : LinterClass} {fault : Fault}
    (h : c.validate = .error fault) : s.step (.register worker c) = (s, [], .fault fault) := by
  simp only [step, Registry.register, h]

/-- Commands that do not change a registry leave it alone. -/
theorem registry_step_other (s : Session) {c : Command} {worker : String}
    (h : ∀ name ∈ c.changes?, ¬s.SharesRegistry name worker) :
    (s.step c).1.registry worker = s.registry worker := by
  have hset : ∀ name, ¬s.SharesRegistry name worker → ∀ r,
      (s.setRegistry name r).registry worker = s.registry worker :=
    fun name hname r => (registry_setRegistry ..).trans (if_neg hname)
  cases c with
  | register name c =>
    cases hc : c.validate with
    | error fault => rw [step_register_error s name hc]
    | ok declared => rw [step_register_ok s name hc]; exact hset name (h name rfl) _
  | clear name => exact hset name (h name rfl) _
  | restore name as stages => exact hset name (h name rfl) _
  | snapshot name as => rfl
  | load name dir cli => exact registry_setState ..
  | «open» run name stage ctx => rfl
  | pull run => exact registry_setState ..
  | close run => rfl
  | drain name stage ctx => exact registry_setState ..

theorem registry_step_of_changes?_eq_none (s : Session) (h : c.changes? = none) :
    (s.step c).1.registry worker = s.registry worker :=
  registry_step_other s fun name hname => by rw [h] at hname; cases hname

theorem registered_ok (s : Session) (name worker : String) (stage : Stage) {c : LinterClass}
    {linter : String} {declared : Stage} (h : c.validate = .ok (linter, declared)) :
    s.registered worker stage (.register name c) =
      if s.SharesRegistry name worker ∧ declared = stage then [c] else [] := by
  simp only [registered, h]

theorem registered_error (s : Session) (name worker : String) (stage : Stage) {c : LinterClass}
    {fault : Fault} (h : c.validate = .error fault) :
    s.registered worker stage (.register name c) = [] := by
  simp only [registered, h]

/-- A registration puts its class behind the others of the stage, in every registry that it reaches. -/
theorem forStage_step_register (s : Session) (name : String) (c : LinterClass) (worker : String)
    (stage : Stage) :
    ((s.step (.register name c)).1.registry worker).forStage stage =
      (s.registry worker).forStage stage ++ s.registered worker stage (.register name c) := by
  cases hc : c.validate with
  | error fault =>
    rw [step_register_error s name hc, registered_error s name worker stage hc, List.append_nil]
  | ok declared =>
    rw [step_register_ok s name hc, registered_ok s name worker stage hc, registry_setRegistry]
    by_cases hshared : s.SharesRegistry name worker
    · rw [if_pos hshared, hshared.registry_eq, Registry.forStage_append]
      simp only [hshared, true_and]
    · rw [if_neg hshared, if_neg fun h => hshared h.1, List.append_nil]

/-- A command that does not set a registry anew keeps its classes and may put others behind them. -/
theorem forStage_step_kept (h : ¬s.Resets worker c) (stage : Stage) :
    ((s.step c).1.registry worker).forStage stage =
      (s.registry worker).forStage stage ++ s.registered worker stage c := by
  have hother : (∀ name ∈ c.changes?, ¬s.SharesRegistry name worker) →
      s.registered worker stage c = [] → ((s.step c).1.registry worker).forStage stage =
        (s.registry worker).forStage stage ++ s.registered worker stage c := by
    intro hkept hnone
    rw [registry_step_other s hkept, hnone, List.append_nil]
  cases c with
  | register name c => exact forStage_step_register ..
  | clear name => exact hother (fun name' hname hshared => h ⟨name', hname, hshared⟩) rfl
  | restore name as stages => exact hother (fun name' hname hshared => h ⟨name', hname, hshared⟩) rfl
  | snapshot | load | «open» | pull | close | drain => exact hother (fun _ hname => nomatch hname) rfl

theorem registry_step_clear (h : s.SharesRegistry name worker) :
    (s.step (.clear name)).1.registry worker = {} :=
  (registry_setRegistry ..).trans (if_pos h)

theorem registry_step_restore (h : s.SharesRegistry name worker) (as : String) (stages : List String) :
    (s.step (.restore name as stages)).1.registry worker = (s.snapshot as).restrict stages :=
  (registry_setRegistry ..).trans (if_pos h)

/-! ## Snapshots -/

theorem snapshot_setRegistry (s : Session) (name : String) (r : Registry) (as : String) :
    (s.setRegistry name r).snapshot as = s.snapshot as := by
  unfold setRegistry; split <;> rfl

/-- A snapshot is a copy: it stays as it is until another one is taken under its name. -/
theorem snapshot_step (s : Session) {c : Command} {as : String} (h : c.takes as = false) :
    (s.step c).1.snapshot as = s.snapshot as := by
  cases c with
  | register name c =>
    cases hc : c.validate with
    | error fault => rw [step_register_error s name hc]
    | ok declared => rw [step_register_ok s name hc]; exact snapshot_setRegistry ..
  | clear name => exact snapshot_setRegistry ..
  | restore name as stages => exact snapshot_setRegistry ..
  | snapshot name as' =>
    have hne : as ≠ as' := Ne.symm (of_decide_eq_false h)
    unfold step snapshot
    rw [OrderedMap.find?_insert, if_neg hne]
  | _ => rfl

theorem snapshot_after (s : Session) {commands : List Command} {as : String}
    (h : ∀ c ∈ commands, c.takes as = false) : (s.after commands).snapshot as = s.snapshot as := by
  induction commands generalizing s with
  | nil => rfl
  | cons c cs ih =>
    obtain ⟨hc, hcs⟩ := List.forall_mem_cons.1 h
    exact (ih (s.step c).1 hcs).trans (snapshot_step s hc)

theorem snapshot_step_taken (s : Session) (name as : String) :
    (s.step (.snapshot name as)).1.snapshot as = s.registry name := by
  unfold step snapshot
  rw [OrderedMap.find?_insert, if_pos rfl]; rfl

/-! ## Whole histories -/

/-- While nothing sets a registry anew, what is registered with it piles up in order. -/
theorem forStage_after_kept (h : ∀ c ∈ commands, ¬s.Resets worker c) (stage : Stage) :
    ((s.after commands).registry worker).forStage stage =
      (s.registry worker).forStage stage ++ commands.flatMap (s.registered worker stage) := by
  induction commands generalizing s with
  | nil => exact (List.append_nil _).symm
  | cons c cs ih =>
    obtain ⟨hc, hcs⟩ := List.forall_mem_cons.1 h
    have hlater := ih (s := (s.step c).1) (by rw [resets_step]; exact hcs)
    rw [registered_step, forStage_step_kept hc, List.append_assoc] at hlater
    exact hlater

theorem LastSet.concat {stage : Stage} {held : List LinterClass} {since : List Command}
    (h : s.LastSet worker stage commands held since) (hc : ¬s.Resets worker c) :
    s.LastSet worker stage (commands ++ [c]) held (since ++ [c]) := by
  have hkept : ∀ {l : List Command}, (∀ d ∈ l, ¬s.Resets worker d) →
      ∀ d ∈ l ++ [c], ¬s.Resets worker d := by
    intro l hl d hd
    rcases List.mem_append.1 hd with hd | hd
    · exact hl d hd
    · cases List.mem_singleton.1 hd; exact hc
  cases h with
  | never kept => exact .never (hkept kept)
  | cleared split shared kept =>
    exact .cleared (by rw [split, List.append_assoc]; rfl) shared (hkept kept)
  | restored split shared kept =>
    exact .restored (by rw [split, List.append_assoc]; rfl) shared (hkept kept)

theorem exists_lastSet (s : Session) (worker : String) (stage : Stage) (commands : List Command) :
    ∃ held since, s.LastSet worker stage commands held since := by
  -- commands are added at the end: the last one sets the registry anew, or it came since
  induction commands using List.reverseRecOn with
  | nil => exact ⟨[], [], .never fun c hc => nomatch hc⟩
  | append_singleton commands c ih =>
    by_cases hc : s.Resets worker c
    · obtain ⟨name, hname, hshared⟩ := hc
      have hnone : ∀ c ∈ ([] : List Command), ¬s.Resets worker c := fun c hc => nomatch hc
      cases c with
      | clear name' => cases hname; exact ⟨_, _, .cleared rfl hshared hnone⟩
      | restore name' as stages => cases hname; exact ⟨_, _, .restored rfl hshared hnone⟩
      | _ => cases hname
    · obtain ⟨held, since, hset⟩ := ih
      exact ⟨held, since ++ [c], hset.concat hc⟩

theorem forStage_after_append_cons (front : List Command) (c : Command) {back : List Command}
    (h : ∀ d ∈ back, ¬s.Resets worker d) (stage : Stage) :
    ((s.after (front ++ c :: back)).registry worker).forStage stage =
      (((s.after front).step c).1.registry worker).forStage stage ++
        back.flatMap (s.registered worker stage) := by
  have hkept : ∀ d ∈ back, ¬((s.after front).step c).1.Resets worker d := by
    rw [resets_step, resets_after]; exact h
  rw [after_append_cons, forStage_after_kept hkept, registered_step, registered_after]

/-- A registry holds what it was last set to, and behind it what was registered since. -/
theorem LastSet.forStage_after {stage : Stage} {held : List LinterClass} {since : List Command}
    (h : s.LastSet worker stage commands held since)
    (hstart : (s.registry worker).forStage stage = []) :
    ((s.after commands).registry worker).forStage stage =
      held ++ since.flatMap (s.registered worker stage) := by
  cases h with
  | never kept => rw [forStage_after_kept kept, hstart]
  | cleared split shared kept =>
    rw [← sharesRegistry_after s] at shared
    rw [split, forStage_after_append_cons _ _ kept, registry_step_clear shared,
      Registry.forStage_empty]
  | restored split shared kept =>
    rw [← sharesRegistry_after s] at shared
    rw [split, forStage_after_append_cons _ _ kept, registry_step_restore shared,
      Registry.forStage_restrict]

/-- Registries and snapshots hold none but classes that may be used. -/
structure IsValid (s : Session) : Prop where
  registries : ∀ worker, (s.registry worker).IsValid
  snapshots : ∀ as, (s.snapshot as).IsValid

theorem IsValid.setRegistry (h : s.IsValid) {r : Registry} (hr : r.IsValid) (name : String) :
    (s.setRegistry name r).IsValid where
  registries := by
    intro worker
    rw [registry_setRegistry]
    split
    · exact hr
    · exact h.registries worker
  snapshots := by
    intro as
    rw [snapshot_setRegistry]
    exact h.snapshots as

theorem IsValid.step (h : s.IsValid) (c : Command) : (s.step c).1.IsValid := by
  cases c with
  | register name c =>
    cases hc : c.validate with
    | error fault => rw [step_register_error s name hc]; exact h
    | ok declared =>
      rw [step_register_ok s name hc]
      exact h.setRegistry ((h.registries name).append hc) name
  | clear name => exact h.setRegistry Registry.isValid_empty name
  | restore name as stages => exact h.setRegistry ((h.snapshots as).restrict stages) name
  | snapshot name as =>
    refine ⟨h.registries, fun as' => ?_⟩
    by_cases has : as = as'
    · subst has; rw [snapshot_step_taken]; exact h.registries name
    · have hother : Command.takes as' (.snapshot name as) = false := decide_eq_false has
      rw [snapshot_step s hother]; exact h.snapshots as'
  | load | «open» | pull | close | drain =>
    refine ⟨fun worker => ?_, fun as => ?_⟩
    · rw [registry_step_of_changes?_eq_none s rfl]; exact h.registries worker
    · rw [snapshot_step s rfl]; exact h.snapshots as

theorem IsValid.after (h : s.IsValid) (commands : List Command) : (s.after commands).IsValid := by
  induction commands generalizing s with
  | nil => exact h
  | cons c cs ih => exact ih (h.step c)

theorem registry_fresh (workers : OrderedMap String Worker) (name : String) :
    Session.registry { workers } name = {} := by
  unfold registry
  split <;> rfl

end Session

/-- In a session that began without classes and snapshots, a registry holds of each stage what it was
last set to, followed by the classes of the stage that were registered with it since; a snapshot holds
what the registry held when the snapshot was taken. A registration that is refused changes nothing, no
class is kept that may not be used or declares another stage, and no command changes a registry but
through an orchestrator that uses it. -/
theorem registries_of_history (workers : OrderedMap String Worker) (commands : List Command) :
    let s : Session := { workers }
    let t := s.after commands
    (∀ worker stage, (∃ held since, s.LastSet worker stage commands held since) ∧
      ∀ held since, s.LastSet worker stage commands held since →
        (t.registry worker).forStage stage = held ++ since.flatMap (s.registered worker stage)) ∧
    (∀ front back name as, commands = front ++ .snapshot name as :: back →
      (∀ c ∈ back, c.takes as = false) → t.snapshot as = (s.after front).registry name) ∧
    (∀ name c fault, (t.step (.register name c)).2.2 = .fault fault →
      c.validate = .error fault ∧ (∃ message, fault = .configuration c.label message) ∧
        (t.step (.register name c)).1 = t) ∧
    (∀ worker stage, ∀ c ∈ (t.registry worker).forStage stage,
      ∃ name, c.validate = .ok (name, stage) ∧ c.stageValue.text? = some stage.label) ∧
    ∀ c worker, (∀ name ∈ c.changes?, ¬s.SharesRegistry name worker) →
      (t.step c).1.registry worker = t.registry worker := by
  intro s t
  have hempty : ∀ worker, s.registry worker = {} := Session.registry_fresh workers
  have hvalid : s.IsValid :=
    ⟨fun worker => (hempty worker).symm ▸ Registry.isValid_empty, fun _ => Registry.isValid_empty⟩
  refine ⟨?_, ?_, ?_, ?_, ?_⟩
  · intro worker stage
    refine ⟨s.exists_lastSet worker stage commands, ?_⟩
    intro held since hset
    have hstart : (s.registry worker).forStage stage = [] := by
      rw [hempty, Registry.forStage_empty]
    exact hset.forStage_after hstart
  · intro front back name as hsplit hkept
    have hend : s.after commands = ((s.after front).step (.snapshot name as)).1.after back := by
      rw [hsplit, s.after_append_cons]
    show (s.after commands).snapshot as = _
    rw [hend, Session.snapshot_after _ hkept, Session.snapshot_step_taken]
  · intro name c fault hreply
    cases hc : c.validate with
    | ok declared => rw [t.step_register_ok name hc] at hreply; cases hreply
    | error fault' =>
      rw [t.step_register_error name hc] at hreply ⊢
      cases hreply
      exact ⟨rfl, c.validate_eq_error hc, rfl⟩
  · intro worker stage c hc
    obtain ⟨name, hname⟩ := (hvalid.after commands).registries worker stage c hc
    exact ⟨name, hname, c.text?_stageValue_of_validate hname⟩
  · intro c worker hchanges
    exact t.registry_step_other (by rw [s.sharesRegistry_after]; exact hchanges)

/-- A snapshot of the shared registry outlives its clearing and comes back through another
orchestrator; classes are registered behind it, a nameless one is refused, and the registry that an
orchestrator has of its own goes its own way. -/
theorem registries_of_restored_history :
    let linter := fun key : String =>
      ({ own := { key, linterName := some (.text key), stage := some (.text "pre"),
                  run := .method fun _ => .lazy .done } } : LinterClass)
    let first := linter "first"
    let second := linter "second"
    let nameless := linter ""
    let workers : OrderedMap String Worker :=
      ((OrderedMap.insert ∅ "base" { strategies := {} }).insert "sub" { strategies := {} }).insert "apart"
        { strategies := {}, ownRegistry := true }
    let front : List Command := [.register "sub" first, .register "apart" second]
    let back : List Command := [.register "base" second, .clear "sub"]
    let since : List Command := [.register "sub" first, .register "base" nameless, .register "apart" first]
    let commands := (front ++ .snapshot "base" "kept" :: back) ++
      .restore "base" "kept" ["pre", "post"] :: since
    let t := ({ workers } : Session).after commands
    (t.registry "sub").forStage .pre = [first, first] ∧
      (t.registry "apart").forStage .pre = [second, first] ∧
      (t.step (.register "base" nameless)).1 = t := by
  intro linter first second nameless workers front back since commands t
  let s : Session := { workers }
  obtain ⟨hlists, -, hrefused, -, -⟩ := registries_of_history workers commands
  obtain ⟨-, hkept, -⟩ := registries_of_history workers (front ++ .snapshot "base" "kept" :: back)
  have hrestored : s.LastSet "sub" .pre commands _ since :=
    .restored rfl (by decide) (by decide)
  have hnever : s.LastSet "apart" .pre commands [] commands := .never (by decide)
  have hsnapshot : (s.after (front ++ .snapshot "base" "kept" :: back)).snapshot "kept" =
      (s.after front).registry "base" := hkept front back "base" "kept" rfl (by decide)
  refine ⟨?_, (hlists "apart" .pre).2 _ _ hnever, ?_⟩
  · refine ((hlists "sub" .pre).2 _ _ hrestored).trans ?_
    rw [hsnapshot]; rfl
  · exact (hrefused "base" nameless (nameless.rejection "missing/invalid name or stage") rfl).2.2

end LintEngine
