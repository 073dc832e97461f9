/-
The command line. It takes what the lint command may look at from the disk, runs the command on it and
writes what the command says.
-/
import LintEngine.Command.Reach
import LintEngine.Command.Run
import LintEngine.Packing.Members
import LintEngine.Yaml.Read

namespace LintEngine.Disk

/-- The directory that the environment gives for temporary ones. -/
def tempRoot : IO String := do
  for name in ["TMPDIR", "TMP", "TEMP"] do
    let some root ← IO.getEnv name | continue
    if root = "/" then return root
    if root != "" then return (root.dropSuffix "/").toString
  return "/tmp"

/-- Draws what is added to the name of a temporary directory. -/
def draw : IO String := do
  let letters := "abcdefghijklmnopqrstuvwxyzABCDEFGHIJKLMNOPQRSTUVWXYZ0123456789".toList
  let drawn ← (List.range 6).mapM fun _ => IO.rand 0 (letters.length - 1)
  return String.ofList (drawn.map fun n => letters.getD n 'a')

/-- The names in a directory; nothing when there is no directory. -/
def names (path : String) : IO (Option (List String)) := do
  let here ← IO.currentDir
  let listing ← (here / path).readDir.toBaseIO
  return listing.toOption.map fun entries => entries.toList.map (·.fileName)

def entry? (path : String) : IO (Option Entry) := do
  match ← (IO.FS.readBinFile path).toBaseIO with
  | .ok content => return some (.bytes content.toList)
  | .error (.permissionDenied ..) => return some .closed
  | .error _ => return (← names path).map fun _ => .directory

def takeEntry (t : FileTree) (path : String) : IO FileTree := do
  let some entry ← entry? path | return t
  return t.put (Path.resolve t.cwd path) entry

/-- The paths on the way of a path: its first parts, more and more of them. -/
def way (path : String) : List String :=
  let parts := Path.parts path
  (List.range parts.length).map fun n => "/".intercalate (parts.take (n + 1))

/-- Takes what a path leads to into a file tree, with the directories that it leads through. -/
def takeWay (t : FileTree) (path : String) : IO FileTree :=
  (way path).foldlM takeEntry t

/-- Takes a directory into a file tree, with a file for each name in it. -/
def takeNames (t : FileTree) (path : String) : IO FileTree := do
  let some found ← names path | return t
  let place := Path.resolve t.cwd path
  return (t.put place .directory).putAll place (found.map fun name => ([name], .bytes []))

def tree (args : List String) (tempRoot : String) : IO FileTree := do
  let cwd := Path.resolve [] (← IO.currentDir).toString
  let empty : FileTree := { cwd, follow := Follow.walking }
  let .ok options := LintOptions.parse args | return empty
  let reach := options.reach cwd Testcraft.app tempRoot
  let t ← reach.paths.foldlM takeWay empty
  reach.listed.foldlM takeNames t

end LintEngine.Disk

namespace LintEngine

def Printed.write : Printed → IO Unit
  | .output text => IO.println text
  | .error text => IO.eprintln text
  | .trace fault => IO.eprintln ("Error: " ++ fault.message)

/-- Runs the command on what is on the disk, and gives its status. -/
def runOnDisk (args : List String) : IO Nat := do
  let formats : Formats := ⟨Yaml.read, Entry.members?⟩
  let tempRoot ← Disk.tempRoot
  let setup := Testcraft.setup formats (.standard formats tempRoot [← Disk.draw])
  let environment := (← IO.getEnv Console.debugVariable).toList.map (Console.debugVariable, ·)
  let run := setup.run (Console.debugEnabled environment) (← Disk.tree args tempRoot) args
  run.printed.forM Printed.write
  return run.status

end LintEngine

def main (args : List String) : IO UInt32 := do
  return UInt32.ofNat (← LintEngine.runOnDisk args)
