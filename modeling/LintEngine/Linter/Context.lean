/-
What a linter is given to look at: directories, the project's model and the files themselves.
-/
import LintEngine.Files.Tree

namespace LintEngine

/-- The input of one lint pass. Linters read it and change nothing in it. -/
structure LintContext where
  projectDir : String
  artifactDirs : List String := []
  project : Option Value := none
  files : FileTree := {}
deriving Inhabited

end LintEngine
