/-
Writing tarballs: a header for each entry of a file tree, the files' contents behind theirs, and zeros
up to the end of a record.
-/
import LintEngine.Files.Tree
import LintEngine.Packing.Tarball.Header

namespace LintEngine.Packing.Tarball

def bytesOf (s : String) : List UInt8 := s.toUTF8.toList

/-- A number in so many octal digits, with a zero behind them. -/
def octalField (digits n : Nat) : List UInt8 :=
  let shown := bytesOf (String.ofList (Nat.toDigits 8 n))
  List.replicate (digits - shown.length) 48 ++ shown ++ [0]

/-- What a header says of a member that is written. -/
structure Written where
  name : List UInt8
  kind : Char
  mode : Nat
  content : List UInt8 := []

/-- The user and the group that everything belongs to. -/
def owner : String := "root"

/-- The longest name that fits in a header, and the name of a member that is a name too long for it. -/
def maxName : Nat := 100
def longNameMark : String := "././@LongLink"

def Written.header (w : Written) : List UInt8 :=
  let front := padTo maxName (w.name.take maxName) ++ octalField 7 w.mode ++ octalField 7 0 ++
    octalField 7 0 ++ octalField 11 w.content.length ++ octalField 11 0
  let owned := padTo 32 (bytesOf owner)
  let back := [UInt8.ofNat w.kind.toNat] ++ padTo 100 [] ++ bytesOf "ustar  " ++ [0] ++ owned ++ owned
  let back := padTo (blockLength - 156) back
  let sum := sumOf (front ++ List.replicate 8 32 ++ back)
  front ++ octalField 6 sum ++ [32] ++ back

def Written.blocks (w : Written) : List UInt8 :=
  w.header ++ padTo (blockCount w.content.length * blockLength) w.content

/-- The members that an entry is written as: itself, after its name if that is too long. A file that may
not be read is written as an empty one. -/
def membersFor (place : Place) (e : Entry) : List Written :=
  let path := bytesOf ("/".intercalate ("." :: place))
  let member :=
    if e.isFile then { name := path, kind := '0', mode := 0o644, content := e.bytes?.getD [] }
    else { name := path ++ bytesOf "/", kind := '5', mode := 0o755 }
  if member.name.length ≤ maxName then [member]
  else
    [{ name := bytesOf longNameMark, kind := 'L', mode := 0o644, content := member.name ++ [0] }, member]

/-- The number of bytes in a record. -/
def recordLength : Nat := 20 * blockLength

def ofTree (t : FileTree) : List UInt8 :=
  let written := (([], Entry.directory) :: t.entries.toList).flatMap fun e => membersFor e.1 e.2
  let bytes := written.flatMap Written.blocks
  padTo ((bytes.length + 2 * blockLength + recordLength - 1) / recordLength * recordLength) bytes

end LintEngine.Packing.Tarball
