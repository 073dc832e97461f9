/-
Bits in bytes, and prefix codes over them. A prefix code is canonical: the lengths of its words tell
the words, which ascend by length and, for one length, by symbol.
-/
namespace LintEngine.Packing

/-! ## Bits and bytes -/

/-- The bits of a byte, the least one first. -/
def bitsUp (b : UInt8) : List Bool := (List.range 8).map b.toNat.testBit

/-- The bits of some bytes, each byte's least bit first. -/
def bitsFromLow (bytes : List UInt8) : List Bool := bytes.flatMap bitsUp

/-- The bits of some bytes, each byte's greatest bit first. -/
def bitsFromHigh (bytes : List UInt8) : List Bool := bytes.flatMap fun b => (bitsUp b).reverse

/-- The number that bits spell, the least one first. -/
def natFromLow (bits : List Bool) : Nat := bits.foldr (fun b n => 2 * n + b.toNat) 0

/-- The number that bits spell, the greatest one first. -/
def natFromHigh (bits : List Bool) : Nat := bits.foldl (fun n b => 2 * n + b.toNat) 0

/-- So many bytes from bits, each byte's least bit first. -/
def bytesFromLow : (count : Nat) → List Bool → List UInt8
  | 0, _ => []
  | count + 1, bits => UInt8.ofNat (natFromLow (bits.take 8)) :: bytesFromLow count (bits.drop 8)

/-- So many elements of a list, and what follows them; `none` if there are less. -/
def takeExactly? {α : Type} (n : Nat) (list : List α) : Option (List α × List α) :=
  let (taken, rest) := list.splitAt n
  if taken.length = n then some (taken, rest) else none

/-- The element at a place of a list, and the list with it in front. -/
def toFront? {α : Type} (place : Nat) (list : List α) : Option (α × List α) := do
  let x ← list[place]?
  return (x, x :: list.eraseIdx place)

/-- The number in so many bits, the least one first. -/
def lowBits? (n : Nat) (bits : List Bool) : Option (Nat × List Bool) :=
  (takeExactly? n bits).map fun (taken, rest) => (natFromLow taken, rest)

/-- The number in so many bits, the greatest one first. -/
def highBits? (n : Nat) (bits : List Bool) : Option (Nat × List Bool) :=
  (takeExactly? n bits).map fun (taken, rest) => (natFromHigh taken, rest)

/-- The number that bytes spell, the least one first. -/
def natOfBytes (bytes : List UInt8) : Nat := bytes.foldr (fun b n => 256 * n + b.toNat) 0

/-- The number that bytes spell, the greatest one first. -/
def natOfBytesDown (bytes : List UInt8) : Nat := natOfBytes bytes.reverse

/-- The bytes from the next full one on. -/
def dropPartial (bits : List Bool) : List Bool := bits.drop (bits.length % 8)

/-! ## Prefix codes -/

/-- A prefix code: the symbols with words of each length, from one bit on. -/
structure PrefixCode where
  levels : List (Array Nat)

namespace PrefixCode

/-- Whether there are words enough of each length, when so many are free at the first one. -/
def fits (free : Nat) : List (Array Nat) → Bool
  | [] => true
  | level :: r => level.size ≤ free && fits (2 * (free - level.size)) r

/-- The code whose symbols, in their order, have words of these lengths, at most `longest`; a symbol of
length zero has none. It is `none` when there are too many short words. -/
def ofLengths? (longest : Nat) (lengths : List Nat) : Option PrefixCode :=
  let levels := (List.range longest).map fun n =>
    ((lengths.zipIdx.filter fun p => p.1 == n + 1).map Prod.snd).toArray
  if fits 2 levels then some ⟨levels⟩ else none

/-- The symbol of the word that bits start with; `word` is what has been read of it, and `first` the
first word of its length. -/
def symbolFrom? : List (Array Nat) → (word first : Nat) → List Bool → Option (Nat × List Bool)
  | [], _, _, _ | _, _, _, [] => none
  | level :: r, word, first, b :: bits =>
    let word := 2 * word + b.toNat
    match if first ≤ word then level[word - first]? else none with
    | some symbol => some (symbol, bits)
    | none => symbolFrom? r word (2 * (first + level.size)) bits

/-- The symbol of the word that bits start with. -/
def symbol? (c : PrefixCode) (bits : List Bool) : Option (Nat × List Bool) :=
  symbolFrom? c.levels 0 0 bits

end PrefixCode

end LintEngine.Packing
