/-
The headers of tarballs. A tarball is made of blocks, and a header is one block with fields at fixed
places: names end early at a zero, numbers are octal digits, and a sum over the bytes tells whether a
block is a header.
-/
import LintEngine.Files.Utf8
import LintEngine.Packing.Bits

namespace LintEngine.Packing.Tarball

/-! ## Blocks -/

/-- The number of bytes in a block. -/
def blockLength : Nat := 512

/-- The number of blocks that so many bytes fill. -/
def blockCount (length : Nat) : Nat := (length + blockLength - 1) / blockLength

/-- Bytes with zeros behind them up to a length. -/
def padTo (length : Nat) (bytes : List UInt8) : List UInt8 :=
  bytes ++ List.replicate (length - bytes.length) 0

/-- The full blocks of some bytes. -/
def fullBlocks (bytes : List UInt8) : List (List UInt8) :=
  ((List.range (bytes.length / blockLength)).foldl
    (fun (found, rest) _ => (rest.take blockLength :: found, rest.drop blockLength))
    ([], bytes)).1.reverse

/-! ## Fields -/

/-- Where a field stands in a block, and how long it is. -/
structure Field where
  start : Nat
  length : Nat

namespace Field

def name : Field := ⟨0, 100⟩
def mode : Field := ⟨100, 8⟩
def size : Field := ⟨124, 12⟩
def time : Field := ⟨136, 12⟩
def sum : Field := ⟨148, 8⟩
def kind : Field := ⟨156, 1⟩
def target : Field := ⟨157, 100⟩
def magic : Field := ⟨257, 8⟩
def parent : Field := ⟨345, 155⟩

def bytes (f : Field) (block : List UInt8) : List UInt8 := (block.drop f.start).take f.length

/-- The text of a field, which ends early at a zero. -/
def text (f : Field) (block : List UInt8) : String := Utf8.decode ((f.bytes block).takeWhile (· != 0))

end Field

def isBlank (b : UInt8) : Bool := b == 32 || (9 ≤ b && b ≤ 13)

/-- The number in a field: octal digits with blanks around them, up to a zero, or, when the field starts
with a mark, the bytes themselves. -/
def number? (bytes : List UInt8) : Option Nat :=
  if bytes.head? = some 0x80 then some (natOfBytesDown (bytes.drop 1))
  else
    let bytes := (if bytes.head? = some 0 then bytes.drop 1 else bytes).dropWhile isBlank
    let digits := bytes.takeWhile fun b => 48 ≤ b && b < 56
    let rest := bytes.drop digits.length
    if bytes.isEmpty || rest.head?.any fun b => b != 0 && !isBlank b then none
    else some (digits.foldl (fun n b => 8 * n + (b.toNat - 48)) 0)

/-- The bytes of a block that its sum is about. -/
def summed (block : List UInt8) : List UInt8 := block.take 148 ++ block.drop 156

/-- Whether nothing stands in a block. -/
def isEmptyBlock (block : List UInt8) : Bool := (summed block).all (· == 0)

/-- The sum over a header's bytes, with blanks in the place of the sum itself. -/
def sumOf (block : List UInt8) : Nat := (summed block).foldl (fun n b => n + b.toNat) (8 * 32)

/-- Whether a number is the sum of a header; bytes may also count as numbers with a sign. -/
def isSumOf (n : Nat) (block : List UInt8) : Bool :=
  n == sumOf block || n + 256 * (summed block).countP (128 ≤ ·) == sumOf block

/-! ## Headers -/

inductive Kind
  | file
  /-- A file in another form than the usual one. -/
  | otherFile
  | directory
  /-- A directory with a list of what it held. -/
  | listing
  /-- Another name for a member before. -/
  | hardLink
  | link
  /-- A device or a pipe. -/
  | node
  /-- A name for the tarball. -/
  | label
  /-- The rest of a file in another tarball. -/
  | continuation
  /-- The next member's name, or its target. -/
  | longName
  | longTarget
  /-- Attributes of the next member, or of all that follow. -/
  | ownAttributes
  | sharedAttributes
deriving DecidableEq

def Kind.ofByte (b : UInt8) : Kind :=
  match Char.ofNat b.toNat with
  | '\x00' | '0' | '7' => .file
  | '1' => .hardLink
  | '2' => .link
  | '3' | '4' | '6' => .node
  | '5' => .directory
  | 'D' => .listing
  | 'K' => .longTarget
  | 'L' => .longName
  | 'M' => .continuation
  | 'V' => .label
  | 'g' => .sharedAttributes
  | 'x' | 'X' => .ownAttributes
  | _ => .otherFile

/-- Whether content can follow the header of a member. -/
def Kind.hasContent : Kind → Bool
  | .hardLink | .link | .node | .directory => false
  | _ => true

/-- What a header says; the mode and the time are there when they are numbers. -/
structure Header where
  name : String
  target : String
  size : Nat
  kind : Kind
  mode : Option Nat
  time : Option Nat

/-- What stands in the field for the format. -/
def formatMagic : List UInt8 := [0x75, 0x73, 0x74, 0x61, 0x72]

/-- What stands there when a header's name has two parts. -/
def partedMagic : List UInt8 := formatMagic ++ [0]

def Header.ofBlock? (block : List UInt8) : Option Header := do
  let sum ← number? (Field.sum.bytes block)
  let size ← number? (Field.size.bytes block)
  if !isSumOf sum block then none
  let name := Field.name.text block
  let parent := if (Field.magic.bytes block).take 6 = partedMagic then Field.parent.text block else ""
  return {
    name := if parent = "" then name else parent ++ "/" ++ name
    target := Field.target.text block
    size
    kind := Kind.ofByte ((Field.kind.bytes block).headD 0)
    mode := number? (Field.mode.bytes block)
    time := number? (Field.time.bytes block) }

/-- Whether a block is a header that says what its format is. -/
def isMarkedHeader (block : List UInt8) : Bool :=
  formatMagic.isPrefixOf (Field.magic.bytes block) && (Header.ofBlock? block).isSome

end LintEngine.Packing.Tarball
