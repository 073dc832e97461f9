/-
The lint command: it finds the project, layers the ignore rules, runs the linters of one stage and
turns what they found into a report and an exit status. With a packed artifact the stage after the
build is run on the artifact's entries. Nothing is reported unless the run of the stage succeeds.
-/
import LintEngine.Command.Options
import LintEngine.Log
import LintEngine.Project.Artifact
import LintEngine.Project.File
import LintEngine.Project.IgnoreFile
import LintEngine.Project.Linters
import LintEngine.Report
import LintEngine.Run.Orchestrator

namespace LintEngine

/-- The directory of a project that holds its built artifact. -/
def primeDir : String := "prime"

/-- What the lint command works with: the application's name, the readers of files, the strategies
of the orchestrator, the registered classes, and the tools that unpack an artifact. -/
structure LintSetup where
  app : String := Testcraft.app
  formats : Formats
  strategies : Strategies
  candidates : String → List LinterClass
  tools : Artifact.Tools := .standard formats

/-- The strategies of the application: registered linters, then its own, under the rules that the
project directory holds. -/
def Testcraft.strategies (f : Formats) : Strategies where
  select := Testcraft.select f
  projectIgnores := IgnoreFile.loadProject f

/-- What the application's own lint command works with: no classes but its own. -/
def Testcraft.setup (f : Formats) (tools : Artifact.Tools := .standard f) : LintSetup where
  formats := f
  strategies := Testcraft.strategies f
  candidates := Registry.empty.forLabel
  tools

/-- How a lint command ends: its result, what it wrote to the log, what could be seen of the linters,
the state of the orchestrator and the file tree. -/
structure LintRun where
  result : Except Failure Nat
  log : List LogLine
  events : List Event := []
  state : Orchestrator
  files : FileTree

namespace LintRun

def afterLog (log : List LogLine) (r : LintRun) : LintRun :=
  { r with log := log ++ r.log }

/-- The end of a command that is not carried out. -/
def broken (failure : Failure) (log : List LogLine) (state : Orchestrator) (files : FileTree) : LintRun :=
  { result := .error failure, log, state, files }

end LintRun

structure StageRequest where
  stage : Stage
  ctx : LintContext
  /-- What the verdict speaks of. -/
  subject : String
  cliIgnores : IgnoreConfig

namespace LintSetup

/-- What the log says of a step of a run: notes, and the issues that are delivered. -/
def logOf : Step → List LogLine
  | .event (.note text) => [.debug text]
  | .event _ => []
  | .issue _ i => [.debug ("issue " ++ i.id ++ " (" ++ i.severity.label ++ ")")]

/-- What can be seen of the linters in a step of a run. -/
def eventsOf : Step → List Event
  | .event (.note _) => []
  | .event e => [e]
  | .issue _ _ => []

def runStage (s : LintSetup) (o : Orchestrator) (r : StageRequest) : LintRun :=
  let (loaded, o) := s.strategies.load o r.ctx.files r.ctx.projectDir (some r.cliIgnores)
  let (steps, fault, o) := s.strategies.drain s.candidates o r.stage.label r.ctx
  let log := (loaded.map Step.event ++ steps).flatMap logOf
  let events := steps.flatMap eventsOf
  match fault with
  | some fault => { result := .error (.fault fault), log, events, state := o, files := r.ctx.files }
  | none =>
    let highest := o.highest?
    { result := .ok (Report.exitStatus highest)
      log := log ++ [.debug (toString o.issues.length ++ " issue(s) after suppression")] ++
        ((Report.lines o.byLinter) ++ [Report.verdict highest r.subject]).map .message
      events, state := o, files := r.ctx.files }

/-- The rules of the command line: further files first, then the rules themselves on top. -/
def cliIgnores (s : LintSetup) (files : FileTree) (options : LintOptions) :
    List String × IgnoreConfig :=
  let (notes, extra) := IgnoreFile.loadExtra s.formats files options.lintIgnoreFiles
  (notes, extra.merge (IgnoreConfig.ofRules options.lintIgnores))

/-- The directory with the built artifact of a project, if it is there. -/
def primeDirs (files : FileTree) (projectDir : String) : List String :=
  let prime := Path.join projectDir primeDir
  if files.pathExists prime then [prime] else []

def lint (s : LintSetup) (o : Orchestrator) (files : FileTree) (options : LintOptions) : LintRun :=
  match Project.locate files options.projectPath s.app with
  | .error failure => .broken failure [] o files
  | .ok projectFile =>
    let projectDir := Path.dirname projectFile
    let project := Project.loadModel s.formats files projectFile
    let (notes, cliIgnores) := s.cliIgnores files options
    let noted := notes.map LogLine.debug
    match options.postArtifact with
    | some artifact =>
      match files.lookFault? artifact with
      | some fault => .broken (.fault (.file fault)) noted o files
      | none =>
        let used := Artifact.withUnpackedBy s.tools files artifact (s.app ++ "-lint-")
          fun dir files => s.runStage o
            { stage := .post, subject := "artifacts", cliIgnores
              ctx := { projectDir, artifactDirs := [dir], project, files } }
        let before := noted ++ used.before.map .debug
        let after := used.after.map LogLine.debug
        match used.result with
        | .error e => .broken (.app e) (before ++ after) o used.files
        | .ok run =>
          { run with
            result := Failure.behind (used.stuck.map .file) run.result
            log := before ++ run.log ++ after
            files := used.files }
    | none =>
      let artifactDirs := if options.stage = .post then primeDirs files projectDir else []
      (s.runStage o
        { stage := options.stage, subject := Path.basename projectFile, cliIgnores
          ctx := { projectDir, artifactDirs, project, files } }).afterLog noted

end LintSetup

end LintEngine
