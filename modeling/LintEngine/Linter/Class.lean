/-
Linter classes. A class declares a name, a stage and what its `run` is, or inherits them from the
class it extends; the chain of declarations ends at the abstract linter or at no class at all. A
class may be used when some class of the chain declares `run` as a method and the declared name and
stage are valid; a call of `run` reaches the nearest declaration of any kind.
-/
import LintEngine.Linter.Script
import LintEngine.Stage

namespace LintEngine

/-- What a linter does with its input when it is called. -/
abbrev Behaviour := LintContext → Opening

/-- How a class declares `run`. -/
inductive RunDeclaration
  | absent
  | method (behaviour : Behaviour)
  /-- A property that is computed on each access: what its value does when it is called, if it can be. -/
  | accessor (behaviour? : Option Behaviour)
  /-- A property that every instance gets for itself: what its value does when it is called, if it can be. -/
  | field (behaviour? : Option Behaviour)
  /-- A property whose value cannot be called. -/
  | constant
deriving Inhabited

/-- What one class of a chain declares itself. -/
structure Declaration where
  /-- Tells the class from every other one. -/
  key : String
  /-- The name of the class; empty for an anonymous one. -/
  name : String := ""
  linterName : Option Value := none
  stage : Option Value := none
  run : RunDeclaration := .absent
deriving Inhabited

/-- A linter class: its own declaration and those it inherits, the nearest first. -/
structure LinterClass where
  own : Declaration
  inherited : List Declaration := []
  /-- Whether the chain ends at the abstract linter. -/
  isLinter : Bool := true
deriving Inhabited

namespace LinterClass

def extending (own : Declaration) (base : LinterClass) : LinterClass :=
  ⟨own, base.own :: base.inherited, base.isLinter⟩

/-- The declarations from the class itself to the end of its chain. -/
def chain (c : LinterClass) : List Declaration :=
  c.own :: c.inherited

def key (c : LinterClass) : String := c.own.key

instance : BEq LinterClass := ⟨fun a b => a.key == b.key⟩

/-- The linter name that the nearest class declares. -/
def linterName (c : LinterClass) : Value :=
  (c.chain.findSome? (·.linterName)).getD .missing

/-- The declared linter name as text; empty when there is none. -/
def declaredName (c : LinterClass) : String :=
  c.linterName.text?.getD ""

/-- The stage that the nearest class declares. -/
def stageValue (c : LinterClass) : Value :=
  (c.chain.findSome? (·.stage)).getD .missing

/-- The name that an instance gives for itself; only linters give one. -/
def instanceName? (c : LinterClass) : Option String :=
  if c.isLinter then some c.declaredName else none

/-! ## Validation -/

def stageOf? (v : Value) : Option Stage :=
  v.text?.bind Stage.ofLabel?

/-- Whether some class of the chain declares `run` as a method. -/
def implementsRun (c : LinterClass) : Bool :=
  c.chain.any fun d => match d.run with | .method _ => true | _ => false

def label (c : LinterClass) : String :=
  if c.own.name = "" then "<anonymous>" else c.own.name

def rejection (c : LinterClass) (why : String) : Fault :=
  .configuration c.label ("Invalid linter class " ++ c.label ++ ": " ++ why)

/-- The declared name and stage of a class that may be used. -/
def validate (c : LinterClass) : Except Fault (String × Stage) :=
  if !c.implementsRun then .error (c.rejection "abstract classes cannot be registered")
  else
    match c.linterName.text?, stageOf? c.stageValue with
    | some name, some stage =>
      if name = "" then .error (c.rejection "missing/invalid name or stage")
      else .ok (name, stage)
    | _, _ => .error (c.rejection "missing/invalid name or stage")

theorem text?_linterName_of_validate {c : LinterClass} {name : String} {stage : Stage}
    (h : c.validate = .ok (name, stage)) : c.linterName.text? = some name := by
  unfold validate at h
  split at h
  · cases h
  split at h
  · rename_i name' stage' hname _
    split at h
    · cases h
    · cases h; exact hname
  · cases h

theorem validate_eq_error {c : LinterClass} {fault : Fault} (h : c.validate = .error fault) :
    ∃ message, fault = .configuration c.label message := by
  unfold validate at h
  split at h
  · cases h; exact ⟨_, rfl⟩
  · split at h
    · split at h
      · cases h; exact ⟨_, rfl⟩
      · cases h
    · cases h; exact ⟨_, rfl⟩

/-- The stage of a class that may be used is the one that it declares. -/
theorem text?_stageValue_of_validate {c : LinterClass} {name : String} {stage : Stage}
    (h : c.validate = .ok (name, stage)) : c.stageValue.text? = some stage.label := by
  unfold validate at h
  split at h
  · cases h
  split at h
  · rename_i name' stage' _ hstage
    obtain ⟨word, hword, hlabel⟩ := Option.bind_eq_some_iff.1 hstage
    split at h
    · cases h
    · cases h; rw [hword, Stage.eq_label_of_ofLabel? hlabel]
  · cases h

/-! ## Calls -/

/-- What each instance has for itself in the place of `run`: something to call, or something that cannot be
called. -/
def fieldRun? (d : Declaration) : Option (Option Behaviour) :=
  match d.run with
  | .field b? => some b?
  | _ => none

/-- What a declaration shared by all instances has in the place of `run`: something to call, or
something that cannot be called. -/
def sharedRun? (d : Declaration) : Option (Option Behaviour) :=
  match d.run with
  | .method b => some (some b)
  | .accessor b? => some b?
  | .constant => some none
  | .absent | .field _ => none

/-- What a call of `run` on a new instance reaches: its own property, else the nearest shared
declaration. -/
def dispatch? (c : LinterClass) : Option Behaviour :=
  match c.chain.findSome? fieldRun? with
  | some b? => b?
  | none => (c.chain.findSome? sharedRun?).bind id

def call (c : LinterClass) (ctx : LintContext) : Opening :=
  match c.dispatch? with
  | some b => b ctx
  | none => { script := .error .notCallable }

end LinterClass

end LintEngine
