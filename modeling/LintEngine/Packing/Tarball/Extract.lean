/-
Putting the members of a tarball in their places. A later member takes the place of an earlier one,
except that nothing takes the place of a directory that holds something, and that a directory stays.
What goes below a link goes below its target, if that is a directory in the tarball.
-/
import LintEngine.Files.Tree
import LintEngine.Packing.Tarball.Member

namespace LintEngine.Packing.Tarball

inductive Found
  | directory
  | file (content : List UInt8)
  | link (target : String)

abbrev Extracted := OrderedMap Place Found

/-- The place that a name means; `none` when the name leads upwards. -/
def placeOf? (name : String) : Option Place :=
  let parts := Path.parts name
  if parts.contains ".." then none else some (parts.filter fun part => part != "" && part != ".")

/-- Whether a name says that it is a directory's: its last part is a point. -/
def endsInPoint (name : String) : Bool :=
  ((Path.parts name).filter (· != "")).getLast? == some "."

/-- The place that the target of a hard link means; what leads upwards in front does not count. -/
def targetOf? (target : String) : Option Place :=
  let parts := (Path.parts target).dropWhile fun part => part = "" || part = "." || part = ".."
  placeOf? ("/".intercalate parts)

/-- Whether the target of a link is not below the link's directory. Such a link is made when all else is in
its place. -/
def leadsAway (target : String) : Bool := Path.isAbsolute target || (placeOf? target).isNone

namespace Extracted

/-- What is found in a place; the top is a directory. -/
def at? (x : Extracted) (p : Place) : Option Found :=
  if p = [] then some .directory else x.find? p

/-- The place of the directory that a link in a directory leads to. -/
def follow? (x : Extracted) (dir : Place) (target : String) : Option Place := do
  if leadsAway target then none
  let place := dir ++ (← placeOf? target)
  match x.at? place with
  | some .directory => return place
  | _ => none

/-- Goes on from a directory, through directories that are created where there is nothing. -/
def descend? (x : Extracted) (dir : Place) : Place → Option (Extracted × Place)
  | [] => some (x, dir)
  | name :: r =>
    match x.at? (dir ++ [name]) with
    | none => descend? (x.insert (dir ++ [name]) .directory) (dir ++ [name]) r
    | some .directory => descend? x (dir ++ [name]) r
    | some (.file _) => none
    | some (.link target) => do descend? x (← x.follow? dir target) r

/-- Whether there is something below a place. -/
def holds (x : Extracted) (p : Place) : Bool := x.keys.any fun q => q != p && p.isPrefixOf q

def put? (x : Extracted) (p : Place) (found : Found) : Option Extracted := do
  let name ← p.getLast?
  let (x, dir) ← x.descend? [] p.dropLast
  let place := dir ++ [name]
  if x.holds place then none else return x.insert place found

/-- Makes sure that there is a directory in a place. It must not be in the way of a link that is still to
be made. -/
def putDirectory? (x : Extracted) (p : Place) : Option Extracted := do
  let some name := p.getLast? | return x
  let (x, dir) ← x.descend? [] p.dropLast
  let isAwaited := match x.at? (dir ++ [name]) with
    | some (.link target) => leadsAway target
    | _ => false
  if isAwaited then none else return x.insert (dir ++ [name]) .directory

/-- What is found in a place, when it can have another name too. -/
def linkable? (x : Extracted) (p : Place) : Option Found := do
  let name ← p.getLast?
  let (_, dir) ← x.descend? [] p.dropLast
  match x.at? (dir ++ [name]) with
  | some .directory => none
  | found => found

def add? (x : Extracted) (m : Member) : Option Extracted := do
  let place ← placeOf? m.name
  let put (found : Found) := if endsInPoint m.name then none else x.put? place found
  match m.kind with
  | .file | .otherFile => put (.file m.content)
  | .directory | .listing => x.putDirectory? place
  | .node => put (.file [])
  | .link => if m.target = "" then none else put (.link m.target)
  | .hardLink => do
    let target ← targetOf? m.target
    if target = place && (x.at? place).isSome then return x
    put (← x.linkable? target)
  | .label => return x
  | _ => none

/-- The entry that is found: a link to another entry counts as that one, any other link as an empty
file. -/
def entry (x : Extracted) (p : Place) : Found → Entry
  | .directory => .directory
  | .file content => .bytes content
  | .link target =>
    match (placeOf? target).bind fun place => x.at? (p.dropLast ++ place) with
    | some .directory => .directory
    | some (.file content) => .bytes content
    | _ => .bytes []

def entries (x : Extracted) : List (Place × Entry) :=
  x.toList.map fun (place, found) => (place, x.entry place found)

end Extracted

def entries? (bytes : List UInt8) : Option (List (Place × Entry)) := do
  let members ← membersOf? bytes
  let x ← members.foldlM Extracted.add? (∅ : Extracted)
  return x.entries

end LintEngine.Packing.Tarball
