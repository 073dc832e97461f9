/-
The project file of an application: where it is, and the model that it holds.
-/
import LintEngine.Project.Formats

namespace LintEngine.Project

def fileName (app : String) : String := app ++ ".yaml"

/-- The path of a project, from the root. -/
def pathOf (files : FileTree) (path : String) : String :=
  Path.ofPlace (Path.resolve files.cwd path)

/-- Where the project file of a directory would be. -/
def candidate (files : FileTree) (path app : String) : String :=
  Path.join (pathOf files path) (fileName app)

/-- The project file that a path means: the file that the path leads to, else the project file in
the directory. -/
def resolve (files : FileTree) (path app : String) : Except AppError String :=
  if files.isFile (pathOf files path) then .ok (pathOf files path)
  else if files.pathExists (candidate files path app) then .ok (candidate files path app)
  else .error (.projectNotFound (candidate files path app) ("Could not find " ++ fileName app))

/-- The project file that a path means, unless the path cannot even be looked at. -/
def locate (files : FileTree) (path app : String) : Except Failure String :=
  match files.lookFault? (pathOf files path) with
  | some fault => .error (.fault (.file fault))
  | none =>
    match resolve files path app with
    | .ok file => .ok file
    | .error e => .error (.app e)

/-- The entries of the project file; nothing when it cannot be read or is no mapping. -/
def loadModel (f : Formats) (files : FileTree) (path : String) : Option Value :=
  match f.readDocument files path with
  | .ok v => if v.isMapping then some (.object v.entries) else none
  | .error _ => none

end LintEngine.Project
