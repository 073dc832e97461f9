/-
File trees as values: what stands at each place, and how paths are followed there. The root is always a
directory. Reading, listing and the existence tests follow paths as they are written, from the tree's
current directory. Systems differ in what they make of a path and may refuse to follow it, so each tree has
a way to follow paths of its own: by the text of the path alone (`Follow.lexical`), from directory to
directory (`Follow.walking`), or any other.
-/
import LintEngine.Failure
import LintEngine.Files.Path
import LintEngine.Files.Utf8

namespace LintEngine

inductive Entry
  | directory
  | text (s : String)
  | bytes (b : List UInt8)
  /-- A file that packs other entries, tightly. -/
  | archive (members : List (Place × Entry))
  /-- A file that may not be read. -/
  | closed
deriving Inhabited

def Entry.isFile : Entry → Bool
  | .directory => false
  | _ => true

/-- The bytes that a tightly packed file starts with. The others have no meaning for any reader but the
one that unpacks them. -/
def archiveStart : List UInt8 := [0x1F, 0x8B, 8]

def Entry.bytes? : Entry → Option (List UInt8)
  | .directory | .closed => none
  | .text s => some s.toUTF8.toList
  | .bytes b => some b
  | .archive _ => some archiveStart

def Entry.read : Entry → Except FileFault String
  | .text s => .ok s
  | .closed => .error .denied
  | e => (e.bytes?.map Utf8.decode).elim (.error .isDirectory) .ok

/-! ## Paths -/

/-- How a system follows a path from a directory, given what stands at each place: the place that the path
leads to, or what the system has against it. -/
abbrev Follow := (Place → Option Entry) → Place → String → Except FileFault Place

namespace Follow

/-- Goes by the text of a path. A path that ends in a slash leads only to a directory, and an empty path
leads nowhere. -/
def lexical : Follow := fun stands dir path =>
  let place := Path.resolve dir path
  match stands place with
  | none => .error .absent
  | some e =>
    if path = "" then .error .absent
    else if Path.endsInSlash path && e.isFile then .error .absent
    else .ok place

/-- The length of a name or a path, in bytes, from which on a system refuses it. -/
def nameLimit : Nat := 256
def pathLimit : Nat := 4096

/-- Goes on from a directory to what a name means in it. -/
def step (searchable : Place → Bool) (stands : Place → Option Entry) (dir : Place) (name : String) :
    Except FileFault Place :=
  match stands dir with
  | none => .error .absent
  | some e =>
    if e.isFile then .error .notDirectory
    else if !searchable dir then .error .denied
    else if name = "" ∨ name = "." then .ok dir
    else if name = ".." then .ok dir.dropLast
    else if nameLimit ≤ name.utf8ByteSize then .error .nameTooLong
    else .ok (dir ++ [name])

/-- Goes from directory to directory, through those that may be searched. -/
def walking (searchable : Place → Bool := fun _ => true) : Follow := fun stands dir path =>
  if path.toList.contains '\x00' then .error .nullInPath
  else if path = "" then .error .absent
  else if pathLimit ≤ path.utf8ByteSize then .error .nameTooLong
  else
    match (Path.parts path).foldlM (step searchable stands) (if Path.isAbsolute path then [] else dir) with
    | .error fault => .error fault
    | .ok place => if (stands place).isSome then .ok place else .error .absent

end Follow

/-- A file tree together with its current directory, and how paths are followed in it. -/
structure FileTree where
  cwd : Place := []
  entries : OrderedMap Place Entry := ∅
  follow : Follow := Follow.lexical

instance : Inhabited FileTree := ⟨{}⟩

namespace FileTree

def entry? (t : FileTree) (p : Place) : Option Entry :=
  if p = [] then some .directory else t.entries.find? p

/-- The place that a path leads to. -/
def locate (t : FileTree) (path : String) : Except FileFault Place :=
  t.follow t.entry? t.cwd path

/-- What a path leads to, or why it leads nowhere. -/
def look (t : FileTree) (path : String) : Except FileFault Entry :=
  match t.locate path with
  | .error fault => .error fault
  | .ok place => (t.entry? place).elim (.error .absent) .ok

def at? (t : FileTree) (path : String) : Option Entry :=
  (t.look path).toOption

/-- Why a path cannot be looked at: something else than that it leads nowhere. -/
def lookFault? (t : FileTree) (path : String) : Option FileFault :=
  match t.look path with
  | .ok _ => none
  | .error fault => if fault.isAbsence then none else some fault

def pathExists (t : FileTree) (path : String) : Bool :=
  (t.at? path).isSome

def isFile (t : FileTree) (path : String) : Bool :=
  (t.at? path).any Entry.isFile

def read (t : FileTree) (path : String) : Except FileFault String :=
  match t.look path with
  | .error fault => .error fault
  | .ok e => e.read

def names (t : FileTree) (p : Place) : List String :=
  t.entries.keys.filterMap fun q => if q.dropLast = p then q.getLast? else none

def list (t : FileTree) (path : String) : Except FileFault (List String) :=
  match t.locate path with
  | .error fault => .error fault
  | .ok place =>
    match t.entry? place with
    | none => .error .absent
    | some .directory => .ok (t.names place)
    | some _ => .error .notDirectory

/-! ## Changes -/

/-- Makes sure that a directory stands at a place where there is nothing. -/
def ensureDirectory (t : FileTree) (p : Place) : FileTree :=
  match t.entry? p with
  | some _ => t
  | none => { t with entries := t.entries.insert p .directory }

/-- The places on the way to a place, the nearest to the root first. -/
def ancestors (p : Place) : List Place :=
  (List.range p.length).map p.take

/-- Puts an entry at a place below a directory, with the directories on the way to it. A directory
that is already there stays. -/
def putBelow (t : FileTree) (dir p : Place) (e : Entry) : FileTree :=
  let t := (ancestors p).foldl (fun t q => t.ensureDirectory (dir ++ q)) t
  match e with
  | .directory => t.ensureDirectory (dir ++ p)
  | _ => { t with entries := t.entries.insert (dir ++ p) e }

def put (t : FileTree) (p : Place) (e : Entry) : FileTree :=
  t.putBelow [] p e

def putAll (t : FileTree) (dir : Place) (members : List (Place × Entry)) : FileTree :=
  members.foldl (fun t m => t.putBelow dir m.1 m.2) t

/-- Removes a place and everything below it. -/
def remove (t : FileTree) (p : Place) : FileTree :=
  { t with entries := t.entries.filterKeys fun q => !p.isPrefixOf q }

/-- Whether nothing stands at a place or below it. -/
def isFree (t : FileTree) (p : Place) : Bool :=
  p != [] && !t.entries.keys.any p.isPrefixOf

/-- Creates a new directory: its parent has to be there, and its place has to be free. -/
def makeDirectory? (t : FileTree) (p : Place) : Option FileTree :=
  match t.entry? p.dropLast with
  | some .directory =>
    if t.isFree p then some { t with entries := t.entries.insert p .directory } else none
  | _ => none

end FileTree

end LintEngine
