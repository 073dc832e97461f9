/-
How documents and packed artifacts are read. Everything that follows takes these two readers as
given.
-/
import LintEngine.Files.Tree

namespace LintEngine

structure Formats where
  /-- The value that a document's text stands for. -/
  document : String → Except Fault Value
  /-- The entries that a packed artifact holds, with their places in it; `none` when the file is no
  packed artifact. -/
  members : Entry → Option (List (Place × Entry))

def Formats.readDocument (f : Formats) (files : FileTree) (path : String) : Except Fault Value :=
  match files.read path with
  | .ok text => f.document text
  | .error fault => .error (.file fault)

end LintEngine
