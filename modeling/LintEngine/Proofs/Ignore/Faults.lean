/-
When a decision on an issue fails. The globs of an id are tried in order, and one without a valid
expression fails when it is reached; nothing else of a configuration can fail. Main statement: the
exact patterns and the exact decisions that fail (`hides_faults_iff`).
-/
import LintEngine.Ignore.Decision
import LintEngine.Ignore.Rule
import LintEngine.Proofs.Glob.Denotation

namespace LintEngine

open Glob

/-! ## Patterns -/

theorem exists_expression_iff (pattern : String) :
    (∃ e, Expression.read (ofString pattern).source.toList = .ok e) ↔ ¬LeadsBack pattern := by
  rw [read_source, ← isValid_iff]
  split
  · rename_i h; exact ⟨fun _ => h, fun _ => ⟨_, rfl⟩⟩
  · rename_i h
    constructor
    · rintro ⟨e, he⟩; cases he
    · intro h'; exact absurd h' h

theorem matches?_eq_error_iff (pattern name : String) (fault : Fault) :
    (ofString pattern).matches? name = .error fault ↔ fault = .pattern ∧ LeadsBack pattern := by
  unfold matches?
  split
  · rename_i h
    rw [isValid_iff] at h
    simp [h]
  · rename_i h
    rw [isValid_iff, not_not] at h
    constructor
    · rintro ⟨⟩; exact ⟨rfl, h⟩
    · rintro ⟨rfl, -⟩; rfl

/-! ## Decisions -/

/-- Some glob fails, and none before it has matched. -/
theorem anyGlobMatches_eq_error_iff (name : String) (globs : List String) (fault : Fault) :
    anyGlobMatches name globs = .error fault ↔ fault = .pattern ∧ ∃ front g later,
      globs = front ++ g :: later ∧ (∀ x ∈ front, (ofString x).matches? name = .ok false) ∧
      LeadsBack g := by
  induction globs with
  | nil =>
    constructor
    · intro h; cases h
    · rintro ⟨-, front, g, later, h, -⟩; cases front <;> cases h
  | cons y globs ih =>
    simp only [anyGlobMatches, List.cons_eq_append_iff]
    cases hy : (ofString y).matches? name with
    | error fault' =>
      obtain ⟨rfl, hback⟩ := (matches?_eq_error_iff y name fault').1 hy
      constructor
      · rintro ⟨⟩; exact ⟨rfl, [], y, globs, .inl ⟨rfl, rfl⟩, by simp, hback⟩
      · rintro ⟨rfl, -⟩; rfl
    | ok answer =>
      have hfine : ¬LeadsBack y := by
        intro hback
        rw [(matches?_eq_error_iff y name .pattern).2 ⟨rfl, hback⟩] at hy; cases hy
      cases answer with
      | true =>
        constructor
        · rintro ⟨⟩
        · rintro ⟨-, front, g, later, ⟨rfl, h⟩ | ⟨front, rfl, -⟩, hfront, hback⟩
          · cases h; exact absurd hback hfine
          · rw [hfront y (List.mem_cons_self ..)] at hy; cases hy
      | false =>
        simp only [ih]
        refine and_congr_right fun _ => ?_
        constructor
        · rintro ⟨front, g, later, rfl, hfront, hback⟩
          refine ⟨y :: front, g, later, .inr ⟨front, rfl, rfl⟩, fun x hx => ?_, hback⟩
          rcases List.mem_cons.1 hx with rfl | hx
          · exact hy
          · exact hfront x hx
        · rintro ⟨front, g, later, ⟨rfl, h⟩ | ⟨front, rfl, rfl⟩, hfront, hback⟩
          · cases h; exact absurd hback hfine
          · exact ⟨front, g, later, rfl, fun x hx => hfront x (List.mem_cons_of_mem y hx), hback⟩

/-- The glob that a decision fails on: the linter is not hidden as a whole, nor the id on every
file, and no glob of the id before this one matches the file. -/
def IgnoreConfig.FailsOn (c : IgnoreConfig) (linter : String) (issue : Issue) (g : String) : Prop :=
  ∃ s ids globs front later, c.find? linter = some s ∧ s.ids = .only ids ∧ issue.id ∉ ids ∧
    s.byFilename.find? issue.id = some globs ∧ globs.toList = front ++ g :: later ∧
    (∀ x ∈ front, (ofString x).matches? issue.filename = .ok false) ∧ LeadsBack g

theorem IgnoreConfig.hides_eq_error_iff (c : IgnoreConfig) (linter : String) (issue : Issue)
    (fault : Fault) :
    c.hides linter issue = .error fault ↔ fault = .pattern ∧ ∃ g, c.FailsOn linter issue g := by
  unfold IgnoreConfig.hides IgnoreConfig.FailsOn
  cases hs : c.find? linter with
  | none => simp
  | some s =>
    obtain ⟨ids, files⟩ := s
    cases ids with
    | all => simp [IgnoreSpec.hides]
    | only ids =>
      by_cases hid : issue.id ∈ ids
      · simp [IgnoreSpec.hides, hid]
      · cases hf : files.find? issue.id with
        | none => simp [IgnoreSpec.hides, hid, hf]
        | some globs =>
          simp only [IgnoreSpec.hides, hid, hf, if_false, anyGlobMatches_eq_error_iff]
          refine and_congr_right fun _ => ?_
          constructor
          · rintro ⟨front, g, later, h, hfront, hback⟩
            exact ⟨g, _, ids, globs, front, later, rfl, rfl, hid, hf, h, hfront, hback⟩
          · rintro ⟨g, _, _, _, front, later, ⟨⟩, ⟨⟩, -, hf', h, hfront, hback⟩
            rw [hf] at hf'; cases hf'
            exact ⟨front, g, later, h, hfront, hback⟩

/-- A pattern has no expression, and matching against it fails, exactly when a range of it leads from
a character beyond U+FFFF back to one from U+E000 to U+FFFF. A decision fails exactly when it reaches
such a glob, and then always in the same way. -/
theorem hides_faults_iff (c : IgnoreConfig) (linter : String) (issue : Issue) (pattern name : String)
    (fault : Fault) :
    ((∃ e, Expression.read (ofString pattern).source.toList = .ok e) ↔ ¬LeadsBack pattern) ∧
    ((ofString pattern).matches? name = .error fault ↔ fault = .pattern ∧ LeadsBack pattern) ∧
    (c.hides linter issue = .error fault ↔ fault = .pattern ∧ ∃ g, c.FailsOn linter issue g) :=
  ⟨exists_expression_iff pattern, matches?_eq_error_iff pattern name fault,
    IgnoreConfig.hides_eq_error_iff c linter issue fault⟩

/-- In code units `～` comes after `😀`, by code point before it: the range is no empty one, and yet
has no expression. -/
theorem hides_faults_on_emoji_range :
    let glob := "[😀-～]"
    let c := IgnoreConfig.ofRules [⟨"a", "X", some glob⟩]
    (Expression.read (ofString glob).source.toList = .error .disordered) ∧
    (ofString glob).matches? "f" = .error .pattern ∧
    c.hides "a" ⟨"X", "", .error, "f", ""⟩ = .error .pattern :=
  ⟨rfl, rfl, rfl⟩

end LintEngine
