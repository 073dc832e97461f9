/-
The stages of linting and the ways a lint pass can end.
-/
namespace LintEngine

/-- What is linted: the source tree before the build, or the built artifact after it. -/
inductive Stage
  | pre
  | post
deriving DecidableEq, Repr, Inhabited

namespace Stage

def all : List Stage := [.pre, .post]

def label : Stage → String
  | .pre => "pre"
  | .post => "post"

def ofLabel? (s : String) : Option Stage :=
  if s = "pre" then some .pre else if s = "post" then some .post else none

@[simp] theorem ofLabel?_label (s : Stage) : ofLabel? s.label = some s := by
  cases s <;> decide

theorem eq_label_of_ofLabel? {word : String} {s : Stage} (h : ofLabel? word = some s) :
    word = s.label := by
  unfold ofLabel? at h
  split at h
  · cases h; assumption
  · split at h
    · cases h; assumption
    · cases h

end Stage

/-- The summary of a lint pass. -/
inductive ExitCode
  | ok
  | warn
  | error
deriving DecidableEq, Repr, Inhabited

namespace ExitCode

def toNat : ExitCode → Nat
  | .ok => 0
  | .warn => 1
  | .error => 2

end ExitCode

end LintEngine
