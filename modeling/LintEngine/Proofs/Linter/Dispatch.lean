/-
Which `run` a call on a new instance reaches, and whether a class that may be used has one that can be
called. Main statement: a class that passes validation has a valid name and stage, and a call fails on it
just when a value that cannot be called hides the methods behind it (`call_of_valid_class`). Validation
looks for a method anywhere on the chain, a call takes the nearest declaration of any kind; the two part
where the nearest one is such a value (`valid_class_without_callable_run`).
-/
import LintEngine.Run.Orchestrator

namespace LintEngine.LinterClass

/-- Some class of the chain declares a `run` that each instance gets for itself. -/
def HasField (c : LinterClass) : Prop :=
  ∃ d ∈ c.chain, ∃ b, d.run = .field b

/-- What a call of `run` finds: the nearest property of the instance itself, and without any the nearest
declaration that instances share. -/
inductive Reaches (c : LinterClass) : Behaviour → Prop
  | field {front d behind b} (chain : c.chain = front ++ d :: behind) (run : d.run = .field (some b))
      (nearest : ∀ e ∈ front, ∀ b?, e.run ≠ .field b?) : Reaches c b
  | shared {front d behind b} (chain : c.chain = front ++ d :: behind)
      (run : d.run = .method b ∨ d.run = .accessor (some b)) (nearest : ∀ e ∈ front, e.run = .absent)
      (alone : ¬c.HasField) : Reaches c b

/-- What a call of `run` finds cannot be called: that is the nearest property of the instance itself, or
without any the nearest declaration that instances share. -/
inductive IsBlocked (c : LinterClass) : Prop
  | field {front d behind} (chain : c.chain = front ++ d :: behind) (run : d.run = .field none)
      (nearest : ∀ e ∈ front, ∀ b?, e.run ≠ .field b?)
  | shared {front d behind} (chain : c.chain = front ++ d :: behind)
      (run : d.run = .constant ∨ d.run = .accessor none) (nearest : ∀ e ∈ front, e.run = .absent)
      (alone : ¬c.HasField)

/-! ## Declarations -/

theorem fieldRun?_eq_some_iff {d : Declaration} {b? : Option Behaviour} :
    fieldRun? d = some b? ↔ d.run = .field b? := by
  unfold fieldRun?
  cases d.run <;> simp

theorem fieldRun?_eq_none_iff {d : Declaration} : fieldRun? d = none ↔ ∀ b?, d.run ≠ .field b? := by
  simp only [Option.eq_none_iff_forall_ne_some, ne_eq, fieldRun?_eq_some_iff]

theorem sharedRun?_eq_some_some_iff {d : Declaration} {b : Behaviour} :
    sharedRun? d = some (some b) ↔ d.run = .method b ∨ d.run = .accessor (some b) := by
  unfold sharedRun?
  cases d.run <;> simp

theorem sharedRun?_eq_some_none_iff {d : Declaration} :
    sharedRun? d = some none ↔ d.run = .constant ∨ d.run = .accessor none := by
  unfold sharedRun?
  cases d.run <;> simp

theorem sharedRun?_eq_none_iff {d : Declaration} (h : ∀ b?, d.run ≠ .field b?) :
    sharedRun? d = none ↔ d.run = .absent := by
  unfold sharedRun?
  cases hrun : d.run <;> simp_all

theorem implementsRun_iff {c : LinterClass} :
    c.implementsRun = true ↔ ∃ d ∈ c.chain, ∃ b, d.run = .method b := by
  unfold implementsRun
  rw [List.any_eq_true]
  refine exists_congr fun d => and_congr_right fun _ => ?_
  cases d.run <;> simp

/-- What validation asks for: a method somewhere on the chain, a name that is a text but the empty one,
and the word of a stage. -/
theorem validate_eq_ok_iff {c : LinterClass} {name : String} {stage : Stage} :
    c.validate = .ok (name, stage) ↔ (∃ d ∈ c.chain, ∃ b, d.run = .method b) ∧
      c.linterName = .text name ∧ name ≠ "" ∧ c.stageValue = .text stage.label := by
  constructor
  · intro h
    have hname := Value.eq_text_of_text? (text?_linterName_of_validate h)
    have hstage := Value.eq_text_of_text? (text?_stageValue_of_validate h)
    unfold validate at h
    split at h
    · cases h
    rename_i hrun
    simp only [hname, hstage, Value.text?, stageOf?, Option.bind_some, Stage.ofLabel?_label] at h
    split at h
    · cases h
    · rename_i hne
      exact ⟨implementsRun_iff.1 (by simpa using hrun), hname, hne, hstage⟩
  · rintro ⟨hrun, hname, hne, hstage⟩
    have himplements : c.implementsRun = true := implementsRun_iff.2 hrun
    simp [validate, himplements, hname, hstage, hne, Value.text?, stageOf?]

/-! ## Calls -/

theorem findSome?_fieldRun?_eq_none_iff {c : LinterClass} :
    c.chain.findSome? fieldRun? = none ↔ ¬c.HasField := by
  simp [List.findSome?_eq_none_iff, fieldRun?_eq_none_iff, HasField]

/-- Without properties of instances, the first class that declares anything decides. -/
theorem findSome?_sharedRun?_eq_some_iff {c : LinterClass} (h : ¬c.HasField) {r : Option Behaviour} :
    c.chain.findSome? sharedRun? = some r ↔ ∃ front d behind, c.chain = front ++ d :: behind ∧
      sharedRun? d = some r ∧ ∀ e ∈ front, e.run = .absent := by
  rw [List.findSome?_eq_some_iff]
  have hfield : ∀ e ∈ c.chain, ∀ b?, e.run ≠ .field b? := fun e he b? hb => h ⟨e, he, b?, hb⟩
  refine exists_congr fun front => exists_congr fun d => exists_congr fun behind =>
    and_congr_right fun hchain => and_congr_right fun _ => forall₂_congr fun e he => ?_
  refine sharedRun?_eq_none_iff (hfield e ?_)
  rw [hchain]
  exact List.mem_append_left _ he

theorem dispatch?_of_not_hasField {c : LinterClass} (h : ¬c.HasField) :
    c.dispatch? = (c.chain.findSome? sharedRun?).bind id := by
  rw [dispatch?, findSome?_fieldRun?_eq_none_iff.2 h]

theorem dispatch?_of_field {c : LinterClass} {front behind : List Declaration} {d : Declaration}
    {b? : Option Behaviour} (chain : c.chain = front ++ d :: behind) (run : d.run = .field b?)
    (nearest : ∀ e ∈ front, ∀ b?, e.run ≠ .field b?) : c.dispatch? = b? := by
  have hfound : c.chain.findSome? fieldRun? = some b? :=
    List.findSome?_eq_some_iff.2 ⟨_, _, _, chain, fieldRun?_eq_some_iff.2 run,
      fun e he => fieldRun?_eq_none_iff.2 (nearest e he)⟩
  rw [dispatch?, hfound]

theorem dispatch?_of_shared {c : LinterClass} {front behind : List Declaration} {d : Declaration}
    {b? : Option Behaviour} (chain : c.chain = front ++ d :: behind) (run : sharedRun? d = some b?)
    (nearest : ∀ e ∈ front, e.run = .absent) (alone : ¬c.HasField) : c.dispatch? = b? := by
  have hfound : c.chain.findSome? sharedRun? = some b? :=
    (findSome?_sharedRun?_eq_some_iff alone).2 ⟨_, _, _, chain, run, nearest⟩
  rw [dispatch?_of_not_hasField alone, hfound]
  rfl

theorem Reaches.dispatch?_eq {c : LinterClass} {b : Behaviour} (h : c.Reaches b) :
    c.dispatch? = some b := by
  cases h with
  | field chain run nearest => exact dispatch?_of_field chain run nearest
  | shared chain run nearest alone =>
    exact dispatch?_of_shared chain (sharedRun?_eq_some_some_iff.2 run) nearest alone

theorem IsBlocked.dispatch?_eq {c : LinterClass} (h : c.IsBlocked) : c.dispatch? = none := by
  cases h with
  | field chain run nearest => exact dispatch?_of_field chain run nearest
  | shared chain run nearest alone =>
    exact dispatch?_of_shared chain (sharedRun?_eq_some_none_iff.2 run) nearest alone

/-- A class on whose chain anything is declared either has a `run` to call or is blocked. -/
theorem reaches_or_isBlocked {c : LinterClass} (h : ∃ d ∈ c.chain, d.run ≠ .absent) :
    (∃ b, c.Reaches b) ∨ c.IsBlocked := by
  cases hfield : c.chain.findSome? fieldRun? with
  | some b? =>
    obtain ⟨front, d, behind, chain, run, nearest⟩ := List.findSome?_eq_some_iff.1 hfield
    have nearest := fun e he => fieldRun?_eq_none_iff.1 (nearest e he)
    cases b? with
    | some b => exact .inl ⟨b, .field chain (fieldRun?_eq_some_iff.1 run) nearest⟩
    | none => exact .inr (.field chain (fieldRun?_eq_some_iff.1 run) nearest)
  | none =>
    have alone := findSome?_fieldRun?_eq_none_iff.1 hfield
    cases hshared : c.chain.findSome? sharedRun? with
    | none =>
      obtain ⟨d, hd, hrun⟩ := h
      have hnone := List.findSome?_eq_none_iff.1 hshared d hd
      exact absurd ((sharedRun?_eq_none_iff fun b? hb => alone ⟨d, hd, b?, hb⟩).1 hnone) hrun
    | some b? =>
      obtain ⟨front, d, behind, chain, run, nearest⟩ :=
        (findSome?_sharedRun?_eq_some_iff alone).1 hshared
      cases b? with
      | some b => exact .inl ⟨b, .shared chain (sharedRun?_eq_some_some_iff.1 run) nearest alone⟩
      | none => exact .inr (.shared chain (sharedRun?_eq_some_none_iff.1 run) nearest alone)

/-- A class that passes validation has a name and a stage that can be used. A call of `run` on a new
instance does what the declaration that it reaches does; it reaches none, and fails, just when the class
is blocked. -/
theorem call_of_valid_class {c : LinterClass} {name : String} {stage : Stage}
    (h : c.validate = .ok (name, stage)) :
    c.linterName = .text name ∧ name ≠ "" ∧ c.stageValue = .text stage.label ∧
    ((∃ b, c.Reaches b) ↔ ¬c.IsBlocked) ∧
    (∀ b, c.Reaches b → ∀ ctx, c.call ctx = b ctx) ∧
    (c.IsBlocked → ∀ ctx, c.call ctx = { script := .error .notCallable }) := by
  obtain ⟨⟨d, hd, b, hb⟩, hname, hne, hstage⟩ := validate_eq_ok_iff.1 h
  refine ⟨hname, hne, hstage, ⟨?_, fun hfree => ?_⟩, ?_, ?_⟩
  · rintro ⟨b, hreach⟩ hblocked
    have hsame := hreach.dispatch?_eq.symm.trans hblocked.dispatch?_eq
    cases hsame
  · exact (reaches_or_isBlocked ⟨d, hd, by simp [hb]⟩).resolve_right hfree
  · intro b hreach ctx
    rw [call, hreach.dispatch?_eq]
  · intro hblocked ctx
    rw [call, hblocked.dispatch?_eq]

/-- A value that cannot be called does no harm when a base class gives every instance a `run` of its
own. -/
theorem call_past_constant :
    let field : Behaviour := fun _ => .lazy (.fail .document)
    let root : LinterClass := { own :=
      ⟨"root", "Root", some (.text "docs"), some (.text "post"), .method fun _ => .lazy .done⟩ }
    let base := extending { key := "base", run := .field field } root
    let c := extending { key := "c", run := .constant } base
    c.validate = .ok ("docs", .post) ∧ ∀ ctx, c.call ctx = field ctx := by
  intro field root base c
  have h : c.validate = .ok ("docs", .post) := rfl
  obtain ⟨-, -, -, -, hcall, -⟩ := call_of_valid_class h
  have hown : ∀ e ∈ [c.own], ∀ b, e.run ≠ .field b := by
    intro e he b hb
    rw [List.mem_singleton.1 he] at hb
    cases hb
  exact ⟨h, hcall field (.field (show c.chain = [c.own] ++ base.own :: [root.own] from rfl) rfl hown)⟩

/-- A class that hides its base's method behind a value passes validation and is registered, and yet a
run fails on calling it. -/
theorem valid_class_without_callable_run :
    let base : LinterClass := { own :=
      ⟨"base", "Base", some (.text "docs"), some (.text "pre"), .method fun _ => .lazy .done⟩ }
    let c := extending { key := "c", run := .constant } base
    c.validate = .ok ("docs", .pre) ∧ c.dispatch? = none ∧
    ∃ r, Registry.empty.register c = .ok r ∧
      (Strategies.drain {} r.forLabel {} "pre" { projectDir := "." }).2.1 = some .notCallable :=
  ⟨rfl, rfl, _, rfl, rfl⟩

end LintEngine.LinterClass
