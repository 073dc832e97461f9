/-
What a configuration hides, said without the order in which globs are tried. Where every glob has a
valid expression a decision always comes about, and it is this one (`hides_eq_ok`).
-/
import LintEngine.Ignore.Decision
import LintEngine.Ignore.Rule

namespace LintEngine

/-- A map of globs has a glob for an id. -/
def HasGlob (files : OrderedMap String (OrderedSet String)) (id g : String) : Prop :=
  ∃ globs, files.find? id = some globs ∧ g ∈ globs

/-- Some glob of an id matches a file name. -/
def Covers (files : OrderedMap String (OrderedSet String)) (id name : String) : Prop :=
  ∃ g, HasGlob files id g ∧ (Glob.ofString g).matches? name = .ok true

/-- Every glob of a map has a valid expression. -/
def GlobsCompile (files : OrderedMap String (OrderedSet String)) : Prop :=
  ∀ id g, HasGlob files id g → (Glob.ofString g).isValid = true

instance (files : OrderedMap String (OrderedSet String)) : Decidable (GlobsCompile files) :=
  decidable_of_iff (∀ p ∈ files.toList, ∀ g ∈ p.2.toList, (Glob.ofString g).isValid = true) <| by
    constructor
    · rintro h id g ⟨globs, hglobs, hg⟩
      exact h (id, globs) (OrderedMap.find?_eq_some.1 hglobs) g hg
    · rintro h ⟨id, globs⟩ hp g hg
      exact h id g ⟨globs, OrderedMap.find?_eq_some.2 hp, hg⟩

namespace IgnoreSpec

/-- The spec hides an issue. -/
def Hides (s : IgnoreSpec) (issue : Issue) : Prop :=
  match s.ids with
  | .all => True
  | .only ids => issue.id ∈ ids ∨ Covers s.byFilename issue.id issue.filename

/-- Every glob of the spec has a valid expression. -/
def Compiles (s : IgnoreSpec) : Prop :=
  GlobsCompile s.byFilename

instance (s : IgnoreSpec) : Decidable s.Compiles :=
  inferInstanceAs (Decidable (GlobsCompile s.byFilename))

end IgnoreSpec

namespace IgnoreConfig

/-- The configuration hides an issue of a linter. -/
def Hides (c : IgnoreConfig) (linter : String) (issue : Issue) : Prop :=
  ∃ s, c.find? linter = some s ∧ s.Hides issue

/-- Every glob of the configuration has a valid expression. -/
def Compiles (c : IgnoreConfig) : Prop :=
  ∀ linter s, c.find? linter = some s → s.Compiles

instance (c : IgnoreConfig) : Decidable c.Compiles :=
  decidable_of_iff (∀ p ∈ c.toList, p.2.Compiles) <| by
    constructor
    · exact fun h linter s hs => h (linter, s) (OrderedMap.find?_eq_some.1 hs)
    · exact fun h p hp => h p.1 p.2 (OrderedMap.find?_eq_some.2 hp)

end IgnoreConfig

namespace IgnoreRule

/-- The rule is about an issue: it names all issues or the id of this one, on every file or on those
that match its glob. -/
def Meets (r : IgnoreRule) (issue : Issue) : Prop :=
  r.id = wildcard ∨
    (r.id = issue.id ∧ ∀ g, r.glob = some g → (Glob.ofString g).matches? issue.filename = .ok true)

/-- The rule hides an issue of a linter. -/
def Hides (r : IgnoreRule) (linter : String) (issue : Issue) : Prop :=
  r.linter = linter ∧ r.Meets issue

/-- The glob of the rule, if there is one, has a valid expression. -/
def Compiles (r : IgnoreRule) : Prop :=
  ∀ g, r.glob = some g → (Glob.ofString g).isValid = true

instance (r : IgnoreRule) : Decidable r.Compiles :=
  decidable_of_iff (∀ g ∈ r.glob, (Glob.ofString g).isValid = true) <| by
    simp only [Option.mem_def, Compiles]

end IgnoreRule

/-! ## Decisions -/

theorem matches?_eq_ok {g : String} (h : (Glob.ofString g).isValid = true) (name : String) :
    ∃ answer, (Glob.ofString g).matches? name = .ok answer := by
  unfold Glob.matches?; rw [if_pos h]; exact ⟨_, rfl⟩

theorem anyGlobMatches_eq_ok (name : String) {globs : List String}
    (h : ∀ g ∈ globs, (Glob.ofString g).isValid = true) :
    ∃ answer, anyGlobMatches name globs = .ok answer ∧
      (answer = true ↔ ∃ g ∈ globs, (Glob.ofString g).matches? name = .ok true) := by
  induction globs with
  | nil => exact ⟨false, rfl, by simp⟩
  | cons g globs ih =>
    obtain ⟨answer, hanswer⟩ := matches?_eq_ok (h g (List.mem_cons_self ..)) name
    obtain ⟨later, hlater, hiff⟩ := ih fun x hx => h x (List.mem_cons_of_mem g hx)
    -- the search stops at the first glob that matches
    cases answer with
    | true => exact ⟨true, by rw [anyGlobMatches, hanswer], by simp [hanswer]⟩
    | false => exact ⟨later, by rw [anyGlobMatches, hanswer]; exact hlater, by simp [hanswer, hiff]⟩

/-- Only the globs of the issue's own id count. -/
theorem IgnoreSpec.hides_eq_ok_of_globs {s : IgnoreSpec} {issue : Issue}
    (h : ∀ g, HasGlob s.byFilename issue.id g → (Glob.ofString g).isValid = true) :
    ∃ answer, s.hides issue = .ok answer ∧ (answer = true ↔ s.Hides issue) := by
  obtain ⟨ids, files⟩ := s
  unfold IgnoreSpec.hides IgnoreSpec.Hides
  cases ids with
  | all => exact ⟨true, rfl, by simp⟩
  | only ids =>
    by_cases hid : issue.id ∈ ids
    · exact ⟨true, by simp [hid], by simp [hid]⟩
    · cases hf : files.find? issue.id with
      | none => exact ⟨false, by simp [hid], by simp [hid, hf, Covers, HasGlob]⟩
      | some globs =>
        have hglobs : ∀ g ∈ globs.toList, (Glob.ofString g).isValid = true :=
          fun g hg => h g ⟨globs, hf, hg⟩
        obtain ⟨answer, hanswer, hiff⟩ := anyGlobMatches_eq_ok issue.filename hglobs
        refine ⟨answer, by simp [hid, hanswer], ?_⟩
        rw [hiff]; simp [hid, hf, Covers, HasGlob, OrderedSet.mem_def]

theorem IgnoreSpec.hides_eq_ok {s : IgnoreSpec} (h : s.Compiles) (issue : Issue) :
    ∃ answer, s.hides issue = .ok answer ∧ (answer = true ↔ s.Hides issue) :=
  IgnoreSpec.hides_eq_ok_of_globs (h issue.id)

/-- With valid globs a decision comes about, and hides what the configuration says. -/
theorem IgnoreConfig.hides_eq_ok {c : IgnoreConfig} (h : c.Compiles) (linter : String) (issue : Issue) :
    ∃ answer, c.hides linter issue = .ok answer ∧ (answer = true ↔ c.Hides linter issue) := by
  unfold IgnoreConfig.hides IgnoreConfig.Hides
  cases hs : c.find? linter with
  | none => exact ⟨false, rfl, by simp⟩
  | some s =>
    obtain ⟨answer, hanswer, hiff⟩ := IgnoreSpec.hides_eq_ok (h linter s hs) issue
    exact ⟨answer, hanswer, by simp [hiff]⟩

theorem IgnoreConfig.hides_eq_true_iff {c : IgnoreConfig} (h : c.Compiles) (linter : String)
    (issue : Issue) : c.hides linter issue = .ok true ↔ c.Hides linter issue := by
  obtain ⟨answer, hanswer, hiff⟩ := IgnoreConfig.hides_eq_ok h linter issue
  rw [hanswer, ← hiff, Except.ok.injEq]

end LintEngine
