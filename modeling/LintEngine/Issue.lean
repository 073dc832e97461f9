/-
Issues and their severities. Severities are ordered by rank; the highest severity of a list is the
first of greatest rank. Main statement: no member of a list outranks its highest severity, which is
itself a member (`highest?_mem`, `rank_le_highest`).
-/
namespace LintEngine

inductive Severity
  | info
  | warning
  | error
deriving DecidableEq, Repr, Inhabited

namespace Severity

/-- The place of a severity in the order from information to error. -/
def rank : Severity → Nat
  | .info => 1
  | .warning => 2
  | .error => 3

def label : Severity → String
  | .info => "INFO"
  | .warning => "WARNING"
  | .error => "ERROR"

def all : List Severity := [.info, .warning, .error]

def ofLabel? (s : String) : Option Severity :=
  all.find? (·.label == s)

/-- The graver of two severities, the first one if neither is. -/
def graver (best : Option Severity) (s : Severity) : Option Severity :=
  match best with
  | none => some s
  | some b => if b.rank < s.rank then some s else some b

/-- The severity of greatest rank, the first one of several. -/
def highest? (severities : List Severity) : Option Severity :=
  severities.foldl graver none

theorem foldl_graver {l : List Severity} {best : Option Severity} {s : Severity}
    (h : l.foldl graver best = some s) :
    (best = some s ∨ s ∈ l) ∧ (∀ b, best = some b → b.rank ≤ s.rank) ∧ ∀ x ∈ l, x.rank ≤ s.rank := by
  induction l generalizing best with
  | nil => exact ⟨.inl h, fun b hb => by simp_all, by simp⟩
  | cons x r ih =>
    obtain ⟨hs, hb, hr⟩ := ih h
    cases best with
    | none =>
      have hx : x.rank ≤ s.rank := hb x rfl
      refine ⟨.inr ?_, by simp, by simpa [hx] using hr⟩
      rcases hs with hs | hs
      · cases hs; simp
      · simp [hs]
    | some b =>
      by_cases hlt : b.rank < x.rank
      · have e : graver (some b) x = some x := by simp [graver, hlt]
        rw [e] at hs hb
        have hx : x.rank ≤ s.rank := hb x rfl
        refine ⟨.inr ?_, fun c hc => ?_, by simpa [hx] using hr⟩
        · rcases hs with hs | hs
          · cases hs; simp
          · simp [hs]
        · cases hc; omega
      · have e : graver (some b) x = some b := by simp [graver, hlt]
        rw [e] at hs hb
        have hx : b.rank ≤ s.rank := hb b rfl
        refine ⟨?_, fun c hc => ?_, by simpa [show x.rank ≤ s.rank by omega] using hr⟩
        · rcases hs with hs | hs
          · exact .inl hs
          · exact .inr (by simp [hs])
        · cases hc; exact hx

theorem highest?_mem {l : List Severity} {s : Severity} (h : highest? l = some s) : s ∈ l := by
  rcases (foldl_graver h).1 with h | h
  · cases h
  · exact h

theorem rank_le_highest {l : List Severity} {s x : Severity} (h : highest? l = some s)
    (hx : x ∈ l) : x.rank ≤ s.rank :=
  (foldl_graver h).2.2 x hx

theorem highest?_of_mem {l : List Severity} {s : Severity} (h : s ∈ l) :
    ∃ t, highest? l = some t ∧ s.rank ≤ t.rank := by
  have general : ∀ (r : List Severity) (b : Severity), ∃ t, r.foldl graver (some b) = some t := by
    intro r
    induction r with
    | nil => exact fun b => ⟨b, rfl⟩
    | cons x r ih =>
      intro b
      rw [List.foldl_cons]
      by_cases hlt : b.rank < x.rank
      · rw [show graver (some b) x = some x by simp [graver, hlt]]; exact ih x
      · rw [show graver (some b) x = some b by simp [graver, hlt]]; exact ih b
  cases l with
  | nil => cases h
  | cons x r =>
    obtain ⟨t, ht⟩ := general r x
    have hhighest : highest? (x :: r) = some t := ht
    exact ⟨t, hhighest, rank_le_highest hhighest h⟩

/-- Fewer severities have no higher one. -/
theorem highest?_mono {l m : List Severity} (h : l ⊆ m) {s : Severity} (hs : highest? l = some s) :
    ∃ t, highest? m = some t ∧ s.rank ≤ t.rank :=
  highest?_of_mem (h (highest?_mem hs))

theorem highest?_eq_error_iff {l : List Severity} : highest? l = some .error ↔ .error ∈ l := by
  refine ⟨highest?_mem, fun h => ?_⟩
  obtain ⟨t, ht, hrank⟩ := highest?_of_mem h
  cases t with
  | error => exact ht
  | info => exact absurd hrank (by decide)
  | warning => exact absurd hrank (by decide)

end Severity

/-- One finding of a linter. The file name and the link are empty when there is none. -/
structure Issue where
  id : String
  message : String
  severity : Severity
  filename : String := ""
  url : String := ""
deriving DecidableEq, Repr, Inhabited

end LintEngine
