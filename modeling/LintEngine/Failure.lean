/-
What can go wrong. An `AppError` is a failure that the command foresees and reports in one line; a
`Fault` is raised in the middle of the work by a linter, a file, a document or a pattern, and ends
the run. `Failure` is anything a run can end with.
-/
import LintEngine.Value

namespace LintEngine

/-- A failure that the command foresees. -/
inductive AppError
  /-- A `linter:id` or `linter:id=glob` rule that is malformed; `rule` is the text as given. -/
  | invalidRule (rule reason : String)
  | usage (detail : String)
  | projectNotFound (path detail : String)
  | artifact (name detail : String)
  | files (detail : String) (path : Option String)
  | program (command detail : String)
deriving DecidableEq, Repr, Inhabited

/-- The one line that tells a user what failed. -/
def AppError.describe : AppError → String
  | .invalidRule rule reason => "Invalid lint ignore rule '" ++ rule ++ "': " ++ reason
  | .usage detail => detail
  | .projectNotFound path detail => detail ++ " (" ++ path ++ ")"
  | .artifact name detail => "Artifact " ++ name ++ ": " ++ detail
  | .files detail none => detail
  | .files detail (some path) => detail ++ " (" ++ path ++ ")"
  | .program command detail => "Command failed: " ++ command ++ ": " ++ detail

/-- What a system has against a path, or against what is to be done with it. -/
inductive FileFault
  | absent
  | isDirectory
  | notDirectory
  | denied
  /-- Any other error, by its code. -/
  | other (code detail : String)
deriving DecidableEq, Repr, Inhabited

namespace FileFault

def code : FileFault → String
  | .absent => "ENOENT"
  | .isDirectory => "EISDIR"
  | .notDirectory => "ENOTDIR"
  | .denied => "EACCES"
  | .other code _ => code

def detail : FileFault → String
  | .absent => "no such file or directory"
  | .isDirectory => "illegal operation on a directory"
  | .notDirectory => "not a directory"
  | .denied => "permission denied"
  | .other _ detail => detail

def message (fault : FileFault) : String :=
  fault.code ++ ": " ++ fault.detail

def nameTooLong : FileFault := .other "ENAMETOOLONG" "name too long"

/-- A path with a null character means nothing to a system. -/
def nullInPath : FileFault := .other "ERR_INVALID_ARG_VALUE" "a path must not contain null bytes"

/-- Whether the fault only says that a path leads nowhere. -/
def isAbsence : FileFault → Bool
  | .absent | .notDirectory => true
  | .isDirectory | .denied | .other _ _ => false

end FileFault

/-- What the work can raise. -/
inductive Fault
  | configuration (linter message : String)
  /-- A linter raised an error; `traced` when the error knows where it was raised. -/
  | raised (message : String) (traced : Bool)
  | text (s : String)
  | file (fault : FileFault)
  | pattern
  | document
  /-- A document refers to a name that nothing in it bears. -/
  | alias
  | notCallable
deriving DecidableEq, Repr, Inhabited

def Fault.message : Fault → String
  | .configuration _ message => message
  | .raised message _ => message
  | .text s => s
  | .file fault => fault.message
  | .pattern => "Invalid regular expression"
  | .document => "Malformed document"
  | .alias => "Unresolved alias"
  | .notCallable => "linter.run is not a function"

/-- Anything that a run can end with instead of a result. -/
inductive Failure
  | app (error : AppError)
  | fault (fault : Fault)
  | value (v : Value)
deriving Inhabited

def Failure.isAppError : Failure → Bool
  | .app _ => true
  | _ => false

/-- A result behind which a fault may be raised: that spoils a success, and a failure stands. -/
def Failure.behind {α : Type} (raised? : Option Fault) : Except Failure α → Except Failure α
  | .error failure => .error failure
  | .ok a =>
    match raised? with
    | none => .ok a
    | some raised => .error (.fault raised)

@[simp] theorem Failure.behind_none {α : Type} (result : Except Failure α) :
    behind none result = result := by
  cases result <;> rfl

@[simp] theorem Failure.behind_error {α : Type} (raised? : Option Fault) (failure : Failure) :
    behind raised? (.error failure : Except Failure α) = .error failure := rfl

theorem Failure.of_behind_eq_ok {α : Type} {raised? : Option Fault} {result : Except Failure α} {a : α}
    (h : behind raised? result = .ok a) : result = .ok a := by
  cases result with
  | error failure => cases h
  | ok b => cases raised? <;> cases h; rfl

end LintEngine
