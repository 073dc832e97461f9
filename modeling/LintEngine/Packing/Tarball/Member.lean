/-
The members of tarballs. Headers that are not about a member themselves give the next one a name or a
target that is too long for its header, or attributes that count for more than what its header says.
-/
import LintEngine.Files.Path
import LintEngine.Packing.Tarball.Header

namespace LintEngine.Packing.Tarball

/-! ## Attributes -/

/-- The attributes that some bytes spell: for each the length of all of it, a blank, a name, an equals
sign, a value and a line end. They end early at a zero. `fuel` bounds their number. -/
def attributes? : (fuel : Nat) → List UInt8 → Option (List (String × String))
  | 0, _ | _, [] | _, 0 :: _ => some []
  | fuel + 1, bytes => do
    let digits := bytes.takeWhile fun b => 48 ≤ b && b < 58
    let length := digits.foldl (fun n b => 10 * n + (b.toNat - 48)) 0
    let (record, rest) ← takeExactly? length bytes
    let afterDigits := record.drop digits.length
    let content := afterDigits.dropWhile fun b => b == 32 || b == 9
    let name := content.takeWhile (· != 61)
    let value := content.drop (name.length + 1)
    if digits.isEmpty || content.length = afterDigits.length || value.getLast? != some 10 then none
    return (Utf8.decode name, Utf8.decode value.dropLast) :: (← attributes? fuel rest)

/-! ## Members -/

structure Member where
  name : String
  target : String
  kind : Kind
  content : List UInt8

/-- What other headers have said of the next member. -/
structure Told where
  name : Option String := none
  target : Option String := none
  own : List (String × String) := []
  shared : List (String × String) := []

/-- An attribute of the next member: the last one of its own, else the first one that is shared. Empty
ones do not count. -/
def Told.attribute? (t : Told) (name : String) : Option String :=
  ((t.own.reverse ++ t.shared).filter (·.2 != "")).lookup name

/-- Takes content of some length from the blocks that it fills. -/
def takeContent? (length : Nat) (blocks : List (List UInt8)) :
    Option (List UInt8 × List (List UInt8)) :=
  (takeExactly? (blockCount length) blocks).map fun (filled, rest) =>
    (filled.flatten.take length, rest)

/-- The text of some bytes, which ends early at a zero. -/
def textUpToZero (bytes : List UInt8) : String := Utf8.decode (bytes.takeWhile (· != 0))

def decimal? (s : String) : Option Nat :=
  if s.toList.all Char.isDigit then s.toNat? else none

/-- Whether a name ends with a slash that it can do without. -/
def endsInSlash (name : String) : Bool := Path.endsInSlash name && name != "/"

/-- The member that a header is about, and the blocks after it. A file whose name ends with a slash is a
directory. -/
def Header.member? (h : Header) (told : Told) (blocks : List (List UInt8)) :
    Option (Member × List (List UInt8)) := do
  if h.mode.isNone || h.time.isNone then none
  let name := (told.attribute? "path").getD (told.name.getD h.name)
  let target := (told.attribute? "linkpath").getD (told.target.getD h.target)
  let size ← match told.attribute? "size" with
    | some s => decimal? s
    | none => some h.size
  let kind := if h.kind = .file && endsInSlash name then .directory else h.kind
  let (content, rest) ← takeContent? (if kind.hasContent then size else 0) blocks
  return (⟨name, target, kind, content⟩, rest)

/-- The members in some blocks, up to a block in which nothing stands; `none` when a block should be a
header and is not, or when the blocks end within a member. `fuel` bounds the number of headers. -/
def membersIn? : (fuel : Nat) → Told → List (List UInt8) → Option (List Member)
  | 0, _, _ | _, _, [] => some []
  | fuel + 1, told, block :: rest => do
    if isEmptyBlock block then return []
    let header ← Header.ofBlock? block
    match header.kind with
    | .longName => do
      let (content, rest) ← takeContent? header.size rest
      membersIn? fuel { told with name := some (textUpToZero content) } rest
    | .longTarget => do
      let (content, rest) ← takeContent? header.size rest
      membersIn? fuel { told with target := some (textUpToZero content) } rest
    | .ownAttributes => do
      let (content, rest) ← takeContent? header.size rest
      membersIn? fuel { told with own := ← attributes? (content.length + 1) content } rest
    | .sharedAttributes => do
      let (content, rest) ← takeContent? header.size rest
      membersIn? fuel { told with shared := ← attributes? (content.length + 1) content } rest
    | _ => do
      let (member, rest) ← header.member? told rest
      return member :: (← membersIn? fuel { shared := told.shared } rest)

def membersOf? (bytes : List UInt8) : Option (List Member) :=
  let blocks := fullBlocks bytes
  membersIn? (blocks.length + 1) {} blocks

end LintEngine.Packing.Tarball
