/-
Ignore files: where a project keeps its ignore rules, and reading them. A file that is missing,
cannot be read or holds no mapping adds no rules; notes tell what was done.
-/
import LintEngine.Ignore.Merge
import LintEngine.Ignore.Untyped
import LintEngine.Project.Formats

namespace LintEngine.IgnoreFile

/-- Where a project may keep its rules, the preferred place first. -/
def candidates : List String :=
  ["craft-lint.yaml", ".craft-lint.yaml", Path.join ".craft" "lintignore.yaml"]

def find? (files : FileTree) (dir : String) : Option String :=
  (candidates.map (Path.join dir)).find? files.pathExists

def read (f : Formats) (files : FileTree) (path : String) : List String × IgnoreConfig :=
  match f.readDocument files path with
  | .error fault =>
    (["Cannot read lint ignore file " ++ path ++ ": " ++ fault.message], ∅)
  | .ok v =>
    if v.isMapping then ([], IgnoreConfig.ofValue v)
    else (["Lint ignore config " ++ path ++ " is not a mapping; ignoring this file."], ∅)

/-- The rules that a project directory holds, with notes. -/
def loadProject (f : Formats) (files : FileTree) (dir : String) : List String × IgnoreConfig :=
  match find? files dir with
  | none => ([], ∅)
  | some path =>
    let (notes, config) := read f files path
    (("Loading linter ignore config from " ++ path) :: notes, config)

/-- Layers the rules of one more file on top of a configuration. -/
def addExtra (f : Formats) (files : FileTree) (acc : List String × IgnoreConfig) (path : String) :
    List String × IgnoreConfig :=
  if files.pathExists path then
    let (notes, config) := read f files path
    (acc.1 ++ notes, acc.2.merge config)
  else (acc.1 ++ ["Lint ignore file " ++ path ++ " does not exist; skipping."], acc.2)

/-- The rules of several files, later ones on top, with notes. -/
def loadExtra (f : Formats) (files : FileTree) (paths : List String) :
    List String × IgnoreConfig :=
  paths.foldl (addExtra f files) ([], ∅)

end LintEngine.IgnoreFile
