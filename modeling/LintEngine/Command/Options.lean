/-
The command line of the lint command. Arguments are read from left to right; a flag with a value
takes it from behind an equals sign or from the next argument, whatever that looks like; the first
problem ends the reading.
-/
import LintEngine.Ignore.Rule
import LintEngine.Stage

namespace LintEngine

structure LintOptions where
  /-- The project directory, or the project file itself. -/
  projectPath : String := "."
  stage : Stage := .pre
  postArtifact : Option String := none
  lintIgnores : List IgnoreRule := []
  lintIgnoreFiles : List String := []
  help : Bool := false
deriving Inhabited

namespace LintOptions

inductive Flag
  | stage
  | post
  | lintIgnore
  | lintIgnoreFile
deriving DecidableEq, Repr

def Flag.text : Flag → String
  | .stage => "--stage"
  | .post => "--post"
  | .lintIgnore => "--lint-ignore"
  | .lintIgnoreFile => "--lint-ignore-file"

def Flag.all : List Flag := [.stage, .post, .lintIgnore, .lintIgnoreFile]

def Flag.ofText? (text : String) : Option Flag :=
  Flag.all.find? fun f => f.text == text

@[simp] theorem Flag.ofText?_text (f : Flag) : Flag.ofText? f.text = some f := by
  cases f <;> decide

theorem Flag.text_of_ofText? {text : String} {f : Flag} (h : Flag.ofText? text = some f) :
    f.text = text := by
  have hfound : (Flag.all.find? fun f => f.text == text) = some f := h
  simpa using List.find?_some hfound

theorem Flag.ofText?_eq_none_iff {text : String} :
    Flag.ofText? text = none ↔ ∀ f : Flag, text ≠ f.text := by
  constructor
  · rintro h f rfl
    rw [Flag.ofText?_text] at h; cases h
  · intro h
    cases hf : Flag.ofText? text with
    | none => rfl
    | some f => exact absurd (Flag.text_of_ofText? hf).symm (h f)

def apply (o : LintOptions) (value : String) : Flag → Except AppError LintOptions
  | .stage =>
    match Stage.ofLabel? value with
    | some stage => .ok { o with stage }
    | none =>
      .error (.usage ("Invalid stage '" ++ value ++ "': expected '" ++ Stage.pre.label ++ "' or '" ++
        Stage.post.label ++ "'"))
  | .post => .ok { o with postArtifact := some value, stage := .post }
  | .lintIgnore =>
    match IgnoreRule.parse value with
    | .ok rule => .ok { o with lintIgnores := o.lintIgnores ++ [rule] }
    | .error e => .error e
  | .lintIgnoreFile => .ok { o with lintIgnoreFiles := o.lintIgnoreFiles ++ [value] }

/-- The name of a flag and the value behind its first equals sign. -/
def splitFlag (arg : String) : String × Option String :=
  match IgnoreRule.cutAt '=' arg.toList with
  | none => (arg, none)
  | some (flag, value) => (String.ofList flag, some (String.ofList value))

theorem splitFlag_plain {name : String} (h : '=' ∉ name.toList) : splitFlag name = (name, none) := by
  rw [splitFlag, IgnoreRule.cutAt_eq_none_iff.2 h]

theorem splitFlag_joined {name : String} (h : '=' ∉ name.toList) (value : String) :
    splitFlag (name ++ "=" ++ value) = (name, some value) := by
  have hchars : (name ++ "=" ++ value).toList = name.toList ++ '=' :: value.toList := by
    simp [String.toList_append]
  rw [splitFlag, hchars, IgnoreRule.cutAt_append h]
  simp

/-- Takes a flag with its value into account; without a value there is nothing to take. -/
def applyValue (o : LintOptions) (text : String) (flag : Flag) (value : Option String) :
    Except AppError LintOptions :=
  match value with
  | none | some "" => .error (.usage ("Option '" ++ text ++ "' requires a value"))
  | some value => o.apply value flag

/-- Reads the arguments from where it stands; `positional` when a project was already named. -/
def parseFrom (o : LintOptions) (positional : Bool) : List String → Except AppError LintOptions
  | [] => .ok o
  | arg :: rest =>
    if arg = "" then parseFrom o positional rest
    else if arg = "-h" ∨ arg = "--help" then parseFrom { o with help := true } positional rest
    else if arg.toList.head? ≠ some '-' then
      if positional then .error (.usage ("Unexpected argument '" ++ arg ++ "'"))
      else parseFrom { o with projectPath := arg } true rest
    else
      let (text, inline) := splitFlag arg
      match Flag.ofText? text, inline, rest with
      | none, _, _ => .error (.usage ("Unknown option '" ++ text ++ "'"))
      | some flag, some value, rest =>
        match o.applyValue text flag (some value) with
        | .ok o => parseFrom o positional rest
        | .error e => .error e
      | some flag, none, [] => o.applyValue text flag none
      | some flag, none, value :: rest =>
        match o.applyValue text flag (some value) with
        | .ok o => parseFrom o positional rest
        | .error e => .error e

def parse (args : List String) : Except AppError LintOptions :=
  parseFrom {} false args

def usage : String := "\n".intercalate [
  "Usage: craft-lint [PROJECT] [options]",
  "",
  "Options:",
  "  --stage pre|post          When to lint: 'pre' = source tree, 'post' = built artifacts",
  "  --post ARTIFACT           Packed artifact to lint with post-linters",
  "  --lint-ignore RULE        'linter:id' or 'linter:id=glob'; may repeat",
  "  --lint-ignore-file PATH   YAML ignore file; may repeat (CLI rules take precedence)",
  "  -h, --help                Show this help"]

end LintOptions

end LintEngine
