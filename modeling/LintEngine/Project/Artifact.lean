/-
Working on a packed artifact: its entries are put into a new temporary directory, which exists only
while its consumer works on it. The directory is created, filled and removed by tools of the system, which
are taken as given: each may fail, and a failed extraction or removal may have got some of the way.
-/
import LintEngine.Project.Formats

namespace LintEngine.Artifact

/-- The tools of the system that an artifact is unpacked with. Each of them says what it came to, or
why it failed, together with the file tree it leaves. -/
structure Tools where
  /-- The directory in which temporary directories are created. -/
  root : String
  /-- Creates a temporary directory whose path starts with the given text, and gives its path. -/
  makeTemp : FileTree → String → Except String String × FileTree
  /-- Puts the entries that a file packs below the directory that a path leads to. -/
  extract : FileTree → Entry → String → Except String Unit × FileTree
  /-- Removes the directory that a path leads to, with all that is in it. -/
  remove : FileTree → String → Except FileFault Unit × FileTree

/-- What is asked of a temporary directory: how its path starts. -/
def Tools.template (tools : Tools) (tempName : String) : String :=
  Path.join tools.root tempName

/-- The tools of a system on which a directory can be created wherever its parent is and its place is
free, and on which just those artifacts can be unpacked that can be read. To the path of a temporary
directory it adds the first of its draws with which the place is free; paths mean what their text says. -/
def Tools.standard (f : Formats) (root : String := "/tmp") (draws : List String := ["000000"]) :
    Tools where
  root
  makeTemp files template :=
    let created := draws.findSome? fun draw =>
      (files.makeDirectory? (Path.resolve files.cwd (template ++ draw))).map (template ++ draw, ·)
    match created with
    | none => (.error FileFault.absent.message, files)
    | some (dir, made) => (.ok dir, made)
  extract files entry dir :=
    match f.members entry with
    | none => (.error "this does not look like a tar archive", files)
    | some members => (.ok (), files.putAll (Path.resolve files.cwd dir) members)
  remove files dir := (.ok (), files.remove (Path.resolve files.cwd dir))

/-- The result of working on an artifact: what came before the consumer, its result unless it was
never called, what came after it, why the temporary directory could not be removed unless it was, and
the file tree at the end. -/
structure Use (α : Type) where
  before : List String := []
  result : Except AppError α
  after : List String := []
  stuck : Option FileFault := none
  files : FileTree

/-- Why a directory cannot be removed. -/
def Tools.stuck? (tools : Tools) (left : FileTree) (dir : String) : Option FileFault :=
  match (tools.remove left dir).1 with
  | .ok () => none
  | .error fault => some fault

/-- The end of work that leaves a temporary directory behind, which is removed then. -/
def Use.removing {α : Type} (tools : Tools) (left : FileTree) (dir : String) (before : List String)
    (result : Except AppError α) : Use α where
  before
  result
  after := if (tools.stuck? left dir).isNone then ["Removed " ++ dir] else []
  stuck := tools.stuck? left dir
  files := (tools.remove left dir).2

/-- Calls a consumer with the directory that holds the entries of an artifact, and with the file
tree as it is then. Once it has been created, the directory is removed in the end, whatever happens. -/
def withUnpackedBy {α : Type} (tools : Tools) (files : FileTree) (artifact tempName : String)
    (use : String → FileTree → α) : Use α :=
  match files.at? artifact with
  | none | some .directory =>
    { result := .error (.artifact artifact "does not exist"), files }
  | some entry =>
    let template := tools.template tempName
    match tools.makeTemp files template with
    | (.error detail, files) =>
      { result := .error (.files ("Cannot create temporary directory: " ++ detail) (some template))
        files }
    | (.ok dir, made) =>
      let before := ["Unpacking " ++ artifact ++ " into " ++ dir]
      match tools.extract made entry dir with
      | (.error detail, left) =>
        .removing tools left dir before
          (.error (.artifact artifact ("is not a supported tarball: " ++ detail)))
      | (.ok (), unpacked) => .removing tools unpacked dir before (.ok (use dir unpacked))

/-- Works on an artifact with the standard tools. -/
def withUnpacked {α : Type} (f : Formats) (files : FileTree) (artifact tempName : String)
    (use : String → FileTree → α) : Use α :=
  withUnpackedBy (.standard f) files artifact tempName use

end LintEngine.Artifact
