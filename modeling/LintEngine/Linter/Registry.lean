/-
Registries of linter classes, by stage. Each stage keeps its classes in the order of registration,
with repetitions. A registry is a value, so it serves as a snapshot of itself.
-/
import LintEngine.Linter.Class

namespace LintEngine

/-- The registered classes of each stage, in the order of registration. -/
structure Registry where
  pre : List LinterClass := []
  post : List LinterClass := []
deriving Inhabited

namespace Registry

def empty : Registry := {}

def forStage (r : Registry) : Stage → List LinterClass
  | .pre => r.pre
  | .post => r.post

/-- The classes of the stage that a word names; none when it names no stage. -/
def forLabel (r : Registry) (label : String) : List LinterClass :=
  match Stage.ofLabel? label with
  | some stage => r.forStage stage
  | none => []

def append (r : Registry) (stage : Stage) (c : LinterClass) : Registry :=
  match stage with
  | .pre => { r with pre := r.pre ++ [c] }
  | .post => { r with post := r.post ++ [c] }

/-- Appends a class to the stage that it declares; a class that may not be used is refused. -/
def register (r : Registry) (c : LinterClass) : Except Fault Registry :=
  match c.validate with
  | .ok (_, stage) => .ok (r.append stage c)
  | .error fault => .error fault

def registerAll (r : Registry) : List LinterClass → Except Fault Registry
  | [] => .ok r
  | c :: cs =>
    match r.register c with
    | .ok r => r.registerAll cs
    | .error fault => .error fault

/-- The registry with the classes of some stages only. -/
def restrict (r : Registry) (stages : List String) : Registry where
  pre := if "pre" ∈ stages then r.pre else []
  post := if "post" ∈ stages then r.post else []

theorem forStage_empty (stage : Stage) : forStage {} stage = [] := by
  cases stage <;> rfl

theorem forStage_append (r : Registry) (declared stage : Stage) (c : LinterClass) :
    (r.append declared c).forStage stage =
      r.forStage stage ++ if declared = stage then [c] else [] := by
  cases declared <;> cases stage <;> simp [append, forStage]

theorem forStage_restrict (r : Registry) (stages : List String) (stage : Stage) :
    (r.restrict stages).forStage stage = if stage.label ∈ stages then r.forStage stage else [] := by
  cases stage <;> rfl

end Registry

end LintEngine
