/-
Matching a whole name against a glob. The pieces are worked through from the last to the first; at
each step the answers for all suffixes of the name are known, so a match takes time proportional to
pieces times characters. Main statements: a piece for one character takes it and leaves the rest
(`accepts_cons`), and a run takes nothing or one more character (`accepts_anyRun_cons`).
-/
import LintEngine.Failure
import LintEngine.Glob.Basic

namespace LintEngine

namespace Glob

/-- The language of a list of pieces. -/
inductive Language : List Piece → List Char → Prop
  | nil : Language [] []
  | literal {c ps s} : Language ps s → Language (.literal c :: ps) (c :: s)
  | anyOne {c ps s} : Language ps s → Language (.anyOne :: ps) (c :: s)
  | oneOf {negated items c ps s} : items.any (·.contains c) ≠ negated → Language ps s →
      Language (.oneOf negated items :: ps) (c :: s)
  | anyRun {w ps s} : Language ps s → Language (.anyRun :: ps) (w ++ s)

def Piece.acceptsOne : Piece → Char → Bool
  | .literal c, x => c == x
  | .anyOne, _ => true
  | .oneOf negated items, x => items.any (·.contains x) != negated
  | .anyRun, _ => false

/-- For a table of answers for all suffixes, longest first: the answers for "some suffix of it". -/
def orOnward : List Bool → List Bool
  | [] => []
  | b :: r =>
    let later := orOnward r
    (b || later.headD false) :: later

/-- The answers for "one accepted character, then the rest", from the answers for the rest. -/
def stepBack (p : Char → Bool) : List Char → List Bool → List Bool
  | c :: s, _ :: r => (p c && r.headD false) :: stepBack p s r
  | _, _ => [false]

/-- For each suffix of a name, the name itself first: whether the pieces accept it as a whole. -/
def suffixAnswers : List Piece → List Char → List Bool
  | [], s => s.map (fun _ => false) ++ [true]
  | .anyRun :: ps, s => orOnward (suffixAnswers ps s)
  | p :: ps, s => stepBack p.acceptsOne s (suffixAnswers ps s)

def accepts (ps : List Piece) (s : List Char) : Bool :=
  (suffixAnswers ps s).headD false

/-- Whether the glob matches the whole name; a glob without a valid expression is a fault. -/
def matches? (g : Glob) (name : String) : Except Fault Bool :=
  if g.isValid then .ok (accepts g.pieces name.toList) else .error .pattern

/-! ## The table -/

/-- The answers for a name are those for its rest, with one in front. -/
theorem suffixAnswers_cons (ps : List Piece) (c : Char) (s : List Char) :
    ∃ b, suffixAnswers ps (c :: s) = b :: suffixAnswers ps s := by
  induction ps generalizing c s with
  | nil => exact ⟨false, by simp [suffixAnswers]⟩
  | cons p ps ih =>
    obtain ⟨b, hb⟩ := ih c s
    cases p <;> simp [suffixAnswers, hb, orOnward, stepBack]

theorem accepts_anyRun_cons (ps : List Piece) (c : Char) (s : List Char) :
    accepts (.anyRun :: ps) (c :: s) = (accepts ps (c :: s) || accepts (.anyRun :: ps) s) := by
  obtain ⟨b, hb⟩ := suffixAnswers_cons ps c s
  simp [accepts, suffixAnswers, hb, orOnward]

theorem accepts_cons {p : Piece} (h : p ≠ .anyRun) (ps : List Piece) (c : Char) (s : List Char) :
    accepts (p :: ps) (c :: s) = (p.acceptsOne c && accepts ps s) := by
  obtain ⟨b, hb⟩ := suffixAnswers_cons ps c s
  cases p <;> first
    | exact absurd rfl h
    | simp [accepts, suffixAnswers, hb, stepBack]

end Glob

end LintEngine
