/-
Cyclic redundancy checks: the remainder of a text, as a polynomial over two elements, by a fixed one.
-/
namespace LintEngine.Packing

/-- A check with its polynomial, whose bits stand in the order of the bits of the bytes. -/
structure Check where
  polynomial : Nat
  width : Nat

namespace Check

/-- Takes one bit from the low end. -/
def shiftDown (c : Check) (n : Nat) : Nat :=
  if n % 2 = 1 then (n / 2) ^^^ c.polynomial else n / 2

/-- Takes one bit from the high end. -/
def shiftUp (c : Check) (n : Nat) : Nat :=
  let shifted := 2 * n % Nat.pow 2 c.width
  if n.testBit (c.width - 1) then shifted ^^^ c.polynomial else shifted

def ones (c : Check) : Nat := Nat.pow 2 c.width - 1

/-- The check of bytes whose least bits come first. -/
def ofLow (c : Check) (bytes : List UInt8) : Nat :=
  let step (n : Nat) (b : UInt8) : Nat := Nat.repeat c.shiftDown 8 (n ^^^ b.toNat)
  bytes.foldl step c.ones ^^^ c.ones

/-- The check of bytes whose greatest bits come first. -/
def ofHigh (c : Check) (bytes : List UInt8) : Nat :=
  let step (n : Nat) (b : UInt8) : Nat :=
    Nat.repeat c.shiftUp 8 (n ^^^ (b.toNat * Nat.pow 2 (c.width - 8)))
  bytes.foldl step c.ones ^^^ c.ones

end Check

/-- The check of 32 bits for bytes whose least bits come first. -/
def crc32 : Check := ⟨0xEDB88320, 32⟩

/-- The check of 64 bits for bytes whose least bits come first. -/
def crc64 : Check := ⟨0xC96C5795D7870F42, 64⟩

/-- The check of 32 bits for bytes whose greatest bits come first. -/
def crc32High : Check := ⟨0x04C11DB7, 32⟩

end LintEngine.Packing
