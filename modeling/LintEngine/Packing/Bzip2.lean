/-
Texts packed in the bzip2 format. A block holds a text's runs, sorted by what follows each byte, as
places in a list of the bytes met last, with words of several prefix codes in turn.
-/
import LintEngine.Packing.Bits
import LintEngine.Packing.Checksum

namespace LintEngine.Packing.Bzip2

/-! ## Headers -/

/-- The bytes in use: which groups of sixteen hold any, then which of each such group are. -/
def usedBytes? (bits : List Bool) : Option (List Nat × List Bool) := do
  let (groups, bits) ← takeExactly? 16 bits
  let step (found : List Nat × List Bool) (p : Bool × Nat) : Option (List Nat × List Bool) := do
    if !p.1 then return found
    let (marks, bits) ← takeExactly? 16 found.2
    let used := marks.zipIdx.filterMap fun m => if m.1 then some (16 * p.2 + m.2) else none
    return (found.1 ++ used, bits)
  groups.zipIdx.foldlM step ([], bits)

/-- The number of ones before a zero. -/
def unary? : List Bool → Option (Nat × List Bool)
  | [] => none
  | false :: r => some (0, r)
  | true :: r => (unary? r).map fun (n, s) => (n + 1, s)

/-- So many choices of a code, each as a place in the list of the last ones. -/
def selectors? : (count : Nat) → List Nat → List Bool → Option (List Nat × List Bool)
  | 0, _, bits => some ([], bits)
  | count + 1, recent, bits => do
    let (place, bits) ← unary? bits
    let (x, recent) ← toFront? place recent
    let (xs, bits) ← selectors? count recent bits
    return (x :: xs, bits)

/-- The length of a word, told by steps up and down from the last one. -/
def length? : Nat → List Bool → Option (Nat × List Bool)
  | n, false :: r => if 1 ≤ n ∧ n ≤ 20 then some (n, r) else none
  | n, true :: false :: r => length? (n + 1) r
  | n, true :: true :: r => length? (n - 1) r
  | _, _ => none

/-- The lengths of so many words. -/
def lengths? : (count : Nat) → Nat → List Bool → Option (List Nat × List Bool)
  | 0, _, bits => some ([], bits)
  | count + 1, n, bits => do
    let (n, bits) ← length? n bits
    let (ns, bits) ← lengths? count n bits
    return (n :: ns, bits)

/-- So many codes for so many symbols each. -/
def codes? (symbols : Nat) : (count : Nat) → List Bool → Option (List PrefixCode × List Bool)
  | 0, bits => some ([], bits)
  | count + 1, bits => do
    let (start, bits) ← highBits? 5 bits
    let (lengths, bits) ← lengths? symbols start bits
    let code ← PrefixCode.ofLengths? 20 lengths
    let (codes, bits) ← codes? symbols count bits
    return (code :: codes, bits)

/-! ## Symbols -/

/-- The number of symbols that are read with one code before the next choice. -/
def groupLength : Nat := 50

/-- Reads symbols up to one that ends the block; `left` are to come with the first of the codes. `fuel`
bounds the number of steps. -/
def symbols? (last : Nat) :
    (fuel left : Nat) → List PrefixCode → List Bool → Option (List Nat × List Bool)
  | 0, _, _, _ | _, _, [], _ => none
  | fuel + 1, 0, _ :: codes, bits => symbols? last fuel groupLength codes bits
  | fuel + 1, left + 1, code :: codes, bits => do
    let (symbol, bits) ← code.symbol? bits
    if symbol = last then return ([], bits)
    let (symbols, bits) ← symbols? last fuel left (code :: codes) bits
    return (symbol :: symbols, bits)

def maxBlock : Nat := 900000

/-- The bytes that symbols stand for. The first two are the digits one and two of the length of a run of
the byte in front, the least digit first; the others are places in the list. -/
def bytesOf? (weight run : Nat) (recent : List Nat) : List Nat → Option (List Nat)
  | [] => some (List.replicate run (recent.headD 0))
  | symbol :: r =>
    if symbol < 2 then
      let run := run + weight * (symbol + 1)
      if maxBlock < run then none else bytesOf? (2 * weight) run recent r
    else do
      let (x, moved) ← toFront? (symbol - 1) recent
      return List.replicate run (recent.headD 0) ++ x :: (← bytesOf? 1 0 moved r)

/-! ## Texts -/

/-- The text whose bytes, sorted by what follows them in it, are these; the text starts after the one at
a place. -/
def unsort (start : Nat) (bytes : List Nat) : List Nat :=
  let sorted := (bytes.zipIdx.mergeSort fun a b => a.1 ≤ b.1).toArray
  let step (found : List Nat × Nat) : List Nat × Nat :=
    match sorted[found.2]? with
    | some (byte, place) => (byte :: found.1, place)
    | none => found
  (Nat.repeat step bytes.length ([], start)).1.reverse

/-- A text with its runs written out: four equal bytes in a row are followed by the number of further
ones. -/
def expandRuns : (count : Nat) → (previous : Nat) → List Nat → List Nat
  | _, _, [] => []
  | 4, previous, n :: r => List.replicate n previous ++ expandRuns 0 0 r
  | count, previous, x :: r =>
    x :: expandRuns (if count != 0 && x == previous then count + 1 else 1) x r

/-! ## Blocks -/

/-- The bits that a block and the end of a stream start with, as numbers. -/
def blockMark : Nat := 0x314159265359
def endMark : Nat := 0x177245385090

/-- Unpacks a block after its mark: its check and its text. -/
def block? (bits : List Bool) : Option (Nat × List UInt8 × List Bool) := do
  let (check, bits) ← highBits? 32 bits
  let (mixed, bits) ← highBits? 1 bits
  let (start, bits) ← highBits? 24 bits
  let (used, bits) ← usedBytes? bits
  let (count, bits) ← highBits? 3 bits
  let (choices, bits) ← highBits? 15 bits
  if mixed = 1 || used.isEmpty || count < 2 || 6 < count || choices = 0 then none
  let (selectors, bits) ← selectors? choices (List.range count) bits
  let (codes, bits) ← codes? (used.length + 2) count bits
  let chosen ← selectors.mapM fun n => codes[n]?
  let (symbols, bits) ← symbols? (used.length + 1) (2 * bits.length + 2) groupLength chosen bits
  let bytes ← bytesOf? 1 0 used symbols
  if bytes.length ≤ start then none
  let text := (expandRuns 0 0 (unsort start bytes)).map UInt8.ofNat
  if crc32High.ofHigh text = check then return (check, text, bits) else none

/-- Unpacks blocks up to the end of a stream, whose check is made up of theirs; `fuel` bounds their
number. -/
def blocks? : (fuel check : Nat) → List Bool → Option (List UInt8 × List Bool)
  | 0, _, _ => none
  | fuel + 1, check, bits => do
    let (mark, bits) ← highBits? 48 bits
    if mark = blockMark then
      let (own, text, bits) ← block? bits
      let turned := 2 * check % 0x100000000 + check / 0x80000000
      let (more, bits) ← blocks? fuel (turned ^^^ own) bits
      return (text ++ more, bits)
    else
      let (whole, bits) ← highBits? 32 bits
      if mark = endMark && whole = check then return ([], dropPartial bits) else none

/-- The bytes that a stream starts with, before the digit of its size. -/
def magic : List UInt8 := [0x42, 0x5A, 0x68]

/-- Unpacks the streams that some bytes start with; what follows them does not count. `fuel` bounds
their number. -/
def streams? : (fuel : Nat) → List UInt8 → Option (List UInt8)
  | 0, _ => none
  | fuel + 1, bytes => do
    let (header, body) ← takeExactly? 4 bytes
    let size := (header.getLastD 0).toNat
    if header.take 3 != magic || size < 0x31 || 0x39 < size then none
    let bits := bitsFromHigh body
    let (text, rest) ← blocks? (bits.length + 1) 0 bits
    let rest := body.drop (body.length - rest.length / 8)
    if rest.take 3 = magic then return text ++ (← streams? fuel rest) else return text

def unpack? (bytes : List UInt8) : Option (List UInt8) := streams? (bytes.length + 1) bytes

end LintEngine.Packing.Bzip2
