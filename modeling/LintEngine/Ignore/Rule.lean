/-
Ignore rules of the form `linter:id` or `linter:id=glob`. The linter ends at the first colon, the id
at the first equals sign after it. A list of rules folds into a configuration; the id `*` hides the
linter as a whole and drops its file rules.
-/
import LintEngine.Failure
import LintEngine.Ignore.Config

namespace LintEngine

/-- A rule that hides an id of a linter, on every file or on those that match a glob. -/
structure IgnoreRule where
  linter : String
  id : String
  glob : Option String := none
deriving DecidableEq, Repr, Inhabited

namespace IgnoreRule

/-- What is wrong with the text of a rule. -/
inductive Defect
  | noColon
  /-- Nothing before the colon, or nothing after it. -/
  | emptyPart
  /-- Nothing before the equals sign, or nothing after it. -/
  | emptyGlobPart
deriving DecidableEq, Repr

def Defect.reason : Defect → String
  | .noColon => "rules must be in the form 'linter:id' or 'linter:id=glob'"
  | .emptyPart => "rules must provide a linter name and issue id"
  | .emptyGlobPart => "glob rules must be in the form 'linter:id=glob'"

/-- The characters before the first `c` and those after it, when `c` occurs. -/
def cutAt (c : Char) : List Char → Option (List Char × List Char)
  | [] => none
  | x :: r => if x = c then some ([], r) else (cutAt c r).map fun p => (x :: p.1, p.2)

theorem cutAt_eq_none_iff {c : Char} {l : List Char} : cutAt c l = none ↔ c ∉ l := by
  induction l with
  | nil => simp [cutAt]
  | cons x r ih => by_cases h : x = c <;> simp [cutAt, h, ih, eq_comm (a := c)]

theorem cutAt_append {c : Char} {front : List Char} (h : c ∉ front) (behind : List Char) :
    cutAt c (front ++ c :: behind) = some (front, behind) := by
  induction front with
  | nil => simp [cutAt]
  | cons x front ih =>
    rw [List.mem_cons, not_or] at h
    rw [List.cons_append, cutAt, if_neg (Ne.symm h.1), ih h.2]
    rfl

theorem eq_append_of_cutAt {c : Char} {l front behind : List Char}
    (h : cutAt c l = some (front, behind)) : l = front ++ c :: behind ∧ c ∉ front := by
  induction l generalizing front with
  | nil => cases h
  | cons x r ih =>
    rw [cutAt] at h
    split at h
    · rename_i hx
      cases h
      exact ⟨by rw [hx]; rfl, List.not_mem_nil⟩
    · rename_i hx
      obtain ⟨⟨front, rest⟩, hcut, hpair⟩ := Option.map_eq_some_iff.1 h
      cases hpair
      obtain ⟨rfl, hfront⟩ := ih hcut
      exact ⟨rfl, List.not_mem_cons_of_ne_of_not_mem (Ne.symm hx) hfront⟩

/-- Reads a rule, or tells its first defect. -/
def read (text : List Char) : Except Defect IgnoreRule :=
  match cutAt ':' text with
  | none => .error .noColon
  | some (linter, rest) =>
    if linter = [] ∨ rest = [] then .error .emptyPart
    else
      match cutAt '=' rest with
      | none => .ok ⟨String.ofList linter, String.ofList rest, none⟩
      | some (id, glob) =>
        if id = [] ∨ glob = [] then .error .emptyGlobPart
        else .ok ⟨String.ofList linter, String.ofList id, some (String.ofList glob)⟩

def parse (text : String) : Except AppError IgnoreRule :=
  match read text.toList with
  | .ok rule => .ok rule
  | .error defect => .error (.invalidRule text defect.reason)

def print (r : IgnoreRule) : String :=
  r.linter ++ ":" ++ r.id ++ (match r.glob with | none => "" | some g => "=" ++ g)

end IgnoreRule

/-- What one rule adds to the spec of its linter. -/
def IgnoreSpec.addRule (s : IgnoreSpec) (r : IgnoreRule) : IgnoreSpec :=
  if r.id = wildcard then IgnoreSpec.everything
  else
    match s.ids, r.glob with
    | .all, _ => s
    | .only ids, none => { s with ids := .only (ids.insert r.id) }
    | .only _, some g =>
      { s with byFilename := s.byFilename.alter r.id fun old => (old.getD ∅).insert g }

namespace IgnoreConfig

def addRule (c : IgnoreConfig) (r : IgnoreRule) : IgnoreConfig :=
  c.alter r.linter fun old => (old.getD IgnoreSpec.empty).addRule r

/-- The configuration of a list of rules, added from first to last. -/
def ofRules (rules : List IgnoreRule) : IgnoreConfig :=
  rules.foldl addRule ∅

end IgnoreConfig

end LintEngine
