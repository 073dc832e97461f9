/-
The entries that a file packs: those of a tarball, which may be packed itself. What a file starts with
tells how it is packed.
-/
import LintEngine.Packing.Bzip2
import LintEngine.Packing.Gzip
import LintEngine.Packing.Tarball.Extract
import LintEngine.Packing.Xz

namespace LintEngine.Packing

/-- A way to pack a text: what it starts with then, and how it is unpacked. -/
structure Method where
  magic : List UInt8
  unpack? : List UInt8 → Option (List UInt8)

def methods : List Method :=
  [⟨Gzip.magic, Gzip.unpack?⟩, ⟨Bzip2.magic, Bzip2.unpack?⟩, ⟨Lzma.magic, Lzma.unpack?⟩,
   ⟨Xz.magic, Xz.unpack?⟩]

/-- The entries in a tarball, which may be packed unless it starts with a header of the usual format. One
that is not packed has at least one block. -/
def membersIn? (bytes : List UInt8) : Option (List (Place × Entry)) := do
  let hasBlock := Tarball.blockLength ≤ bytes.length
  if hasBlock && Tarball.isMarkedHeader (bytes.take Tarball.blockLength) then Tarball.entries? bytes
  else
    match methods.find? fun m => m.magic.isPrefixOf bytes with
    | some method => Tarball.entries? (← method.unpack? bytes)
    | none => if hasBlock then Tarball.entries? bytes else none

end LintEngine.Packing

namespace LintEngine

def Entry.members? : Entry → Option (List (Place × Entry))
  | .directory | .closed => none
  | .archive members => some members
  | .bytes b => Packing.membersIn? b
  | .text s => Packing.membersIn? s.toUTF8.toList

end LintEngine
