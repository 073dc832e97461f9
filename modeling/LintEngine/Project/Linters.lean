/-
The linters of the application itself: one warns of a project without a version, one reports a
packed artifact that holds nothing but its metadata.
-/
import LintEngine.Project.Formats
import LintEngine.Run.Strategy

namespace LintEngine.Testcraft

def app : String := "testcraft"

def projectFile : String := "testcraft.yaml"

def metadata : String := "metadata.yaml"

def versionIssue (path : String) : Issue where
  id := "TC001"
  message := "project is missing the recommended 'version' field"
  severity := .warning
  filename := path

def emptyIssue (dir : String) : Issue where
  id := "TC100"
  message := "artifact is empty other than " ++ metadata
  severity := .error
  filename := Path.join dir metadata

/-- Looks for a version in the project file of the directory, if there is one. -/
def checkVersion (f : Formats) (ctx : LintContext) : Script :=
  let path := Path.join ctx.projectDir projectFile
  if !ctx.files.pathExists path then .done
  else
    match f.readDocument ctx.files path with
    | .error fault => .fail fault
    | .ok v =>
      if v.isMapping && !(v.get "version").isTruthy then .ofIssues [versionIssue path] else .done

def isContent (name : String) : Bool :=
  name != metadata && name.toList.head? != some '.'

/-- Looks for content in each artifact directory that exists. -/
def checkContent (files : FileTree) : List String → Script
  | [] => .done
  | dir :: dirs =>
    if !files.pathExists dir then checkContent files dirs
    else
      match files.list dir with
      | .error fault => .fail (.file fault)
      | .ok names =>
        if names.any isContent then checkContent files dirs
        else .issue (emptyIssue dir) (checkContent files dirs)

def missingVersion (f : Formats) : LinterClass where
  own := {
    key := "builtin:testcraft.missing_version"
    name := "MissingVersionLinter"
    linterName := some (.text "testcraft.missing_version")
    stage := some (.text Stage.pre.label)
    run := .method fun ctx => .lazy (checkVersion f ctx) }

def emptyArtifact : LinterClass where
  own := {
    key := "builtin:testcraft.empty_artifact"
    name := "EmptyArtifactLinter"
    linterName := some (.text "testcraft.empty_artifact")
    stage := some (.text Stage.post.label)
    run := .method fun ctx => .lazy (checkContent ctx.files ctx.artifactDirs) }

/-- The application's linters for the stage that a word names. -/
def extras (f : Formats) (stage : String) : List LinterClass :=
  match Stage.ofLabel? stage with
  | some .pre => [missingVersion f]
  | some .post => [emptyArtifact]
  | none => []

/-- The candidates, followed by those of the application's linters that are not among them. -/
def select (f : Formats) : Selection := fun stage _ candidates =>
  .ok ((extras f stage).foldl (fun cs c => if cs.contains c then cs else cs ++ [c]) candidates)

end LintEngine.Testcraft
