/-
How far a lint command looks: the paths that it may read, known from its options alone.
-/
import LintEngine.Command.Lint

namespace LintEngine

/-- The paths that a lint command may look at: files and directories, and among the latter those
whose names it may list. -/
structure Reach where
  paths : List String
  listed : List String

/-- The paths that a lint command looks at when it is started in a directory, on a system with its
temporary directories in another. The project is either the directory that its path leads to, or holds the
file that it leads to. -/
def LintOptions.reach (o : LintOptions) (cwd : Place) (app tempRoot : String) : Reach :=
  let project := Path.ofPlace (Path.resolve cwd o.projectPath)
  let dirs := [project, Path.dirname project]
  let within (dir : String) : List String :=
    [Project.fileName app, Testcraft.projectFile].map (Path.join dir) ++
      IgnoreFile.candidates.map (Path.join dir)
  { paths := project :: tempRoot :: dirs.flatMap within ++ o.lintIgnoreFiles ++
      o.postArtifact.toList
    listed := dirs.map (Path.join · primeDir) }

end LintEngine
