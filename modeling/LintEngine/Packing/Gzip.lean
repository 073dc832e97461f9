/-
Texts packed in the gzip format: members with a header, blocks of literals and references to what came
before, and a check. Zeros may follow the last member, and nothing else.
-/
import LintEngine.Packing.Bits
import LintEngine.Packing.Checksum

namespace LintEngine.Packing.Gzip

/-! ## Blocks -/

/-- The number that a symbol stands for: the least one of its range, and the number of bits that add to
it. -/
structure Range where
  least : Nat
  extra : Nat

def lengthRanges : List Range :=
  [⟨3, 0⟩, ⟨4, 0⟩, ⟨5, 0⟩, ⟨6, 0⟩, ⟨7, 0⟩, ⟨8, 0⟩, ⟨9, 0⟩, ⟨10, 0⟩, ⟨11, 1⟩, ⟨13, 1⟩, ⟨15, 1⟩, ⟨17, 1⟩,
   ⟨19, 2⟩, ⟨23, 2⟩, ⟨27, 2⟩, ⟨31, 2⟩, ⟨35, 3⟩, ⟨43, 3⟩, ⟨51, 3⟩, ⟨59, 3⟩, ⟨67, 4⟩, ⟨83, 4⟩, ⟨99, 4⟩,
   ⟨115, 4⟩, ⟨131, 5⟩, ⟨163, 5⟩, ⟨195, 5⟩, ⟨227, 5⟩, ⟨258, 0⟩]

def distanceRanges : List Range :=
  (List.range 30).map fun n =>
    if n < 2 then ⟨n + 1, 0⟩ else ⟨(2 + n % 2) * Nat.pow 2 (n / 2 - 1) + 1, n / 2 - 1⟩

/-- The number that a symbol and the bits behind it spell. -/
def Range.read? (ranges : List Range) (symbol : Nat) (bits : List Bool) : Option (Nat × List Bool) := do
  let range ← ranges[symbol]?
  let (more, bits) ← lowBits? range.extra bits
  return (range.least + more, bits)

def endSymbol : Nat := 256

/-- Repeats so many bytes from a distance back. -/
def copy (distance : Nat) : (length : Nat) → Array UInt8 → Array UInt8
  | 0, out => out
  | length + 1, out => copy distance length (out.push (out[out.size - distance]?.getD 0))

structure Codes where
  literals : PrefixCode
  distances : PrefixCode

/-- Unpacks symbols up to the end of a block; `fuel` bounds their number. -/
def symbols? (c : Codes) : (fuel : Nat) → Array UInt8 → List Bool → Option (Array UInt8 × List Bool)
  | 0, _, _ => none
  | fuel + 1, out, bits => do
    let (symbol, bits) ← c.literals.symbol? bits
    if symbol < endSymbol then symbols? c fuel (out.push (UInt8.ofNat symbol)) bits
    else if symbol = endSymbol then return (out, bits)
    else
      let (length, bits) ← Range.read? lengthRanges (symbol - endSymbol - 1) bits
      let (symbol, bits) ← c.distances.symbol? bits
      let (distance, bits) ← Range.read? distanceRanges symbol bits
      if out.size < distance then none
      symbols? c fuel (copy distance length out) bits

/-- The lengths of the words of the codes that are used unless a block gives its own. -/
def fixedLengths : List Nat :=
  List.replicate 144 8 ++ List.replicate 112 9 ++ List.replicate 24 7 ++ List.replicate 8 8

/-- The codes that are used unless a block gives its own. -/
def fixedCodes? : Option Codes := do
  return ⟨← PrefixCode.ofLengths? 15 fixedLengths, ← PrefixCode.ofLengths? 15 (List.replicate 30 5)⟩

/-- The order in which the lengths of the code for lengths come. -/
def lengthOrder : List Nat := [16, 17, 18, 0, 8, 7, 9, 6, 10, 5, 11, 4, 12, 3, 13, 2, 14, 1, 15]

/-- Reads so many lengths of three bits. -/
def shortLengths? : (count : Nat) → List Bool → Option (List Nat × List Bool)
  | 0, bits => some ([], bits)
  | count + 1, bits => do
    let (n, bits) ← lowBits? 3 bits
    let (ns, bits) ← shortLengths? count bits
    return (n :: ns, bits)

/-- Reads lengths until there are so many, in which a symbol can repeat the last length or zero. `fuel`
bounds the number of symbols. -/
def lengths? (c : PrefixCode) (count : Nat) :
    (fuel : Nat) → List Nat → List Bool → Option (List Nat × List Bool)
  | 0, _, _ => none
  | fuel + 1, known, bits =>
    if known.length = count then some (known, bits)
    else if count < known.length then none
    else do
      let (symbol, bits) ← c.symbol? bits
      let repeated (length least extra : Nat) : Option (List Nat × List Bool) := do
        let (more, bits) ← lowBits? extra bits
        lengths? c count fuel (known ++ List.replicate (least + more) length) bits
      match symbol with
      | 16 => repeated (← known.getLast?) 3 2
      | 17 => repeated 0 3 3
      | 18 => repeated 0 11 7
      | n => lengths? c count fuel (known ++ [n]) bits

/-- The codes that a block gives. -/
def ownCodes? (bits : List Bool) : Option (Codes × List Bool) := do
  let (literals, bits) ← lowBits? 5 bits
  let (distances, bits) ← lowBits? 5 bits
  let (short, bits) ← lowBits? 4 bits
  let (given, bits) ← shortLengths? (short + 4) bits
  let ordered := lengthOrder.zip given
  let code ← PrefixCode.ofLengths? 7 ((List.range 19).map fun n => (ordered.lookup n).getD 0)
  let count := literals + 257 + (distances + 1)
  let (all, bits) ← lengths? code count (count + 1) [] bits
  let own := (all.take (literals + 257), all.drop (literals + 257))
  return (⟨← PrefixCode.ofLengths? 15 own.1, ← PrefixCode.ofLengths? 15 own.2⟩, bits)

/-- Copies a block that is not packed. -/
def stored? (out : Array UInt8) (bits : List Bool) : Option (Array UInt8 × List Bool) := do
  let (length, bits) ← lowBits? 16 (dropPartial bits)
  let (inverse, bits) ← lowBits? 16 bits
  if length + inverse != 0xFFFF then none
  let (content, bits) ← takeExactly? (8 * length) bits
  return (out ++ (bytesFromLow length content).toArray, bits)

/-- Unpacks blocks up to the last one; `fuel` bounds their number. -/
def blocks? : (fuel : Nat) → Array UInt8 → List Bool → Option (Array UInt8 × List Bool)
  | 0, _, _ => none
  | fuel + 1, out, bits => do
    let (last, bits) ← lowBits? 1 bits
    let (kind, bits) ← lowBits? 2 bits
    let (out, bits) ← match kind with
      | 0 => stored? out bits
      | 1 => do symbols? (← fixedCodes?) bits.length out bits
      | 2 => do
        let (codes, bits) ← ownCodes? bits
        symbols? codes bits.length out bits
      | _ => none
    if last = 1 then return (out, bits) else blocks? fuel out bits

/-! ## Members -/

def magic : List UInt8 := [0x1F, 0x8B]

/-- What is after a text that a zero ends. -/
def afterZero (bytes : List UInt8) : List UInt8 := (bytes.dropWhile (· != 0)).drop 1

/-- What is after a member's header. -/
def afterHeader? (bytes : List UInt8) : Option (List UInt8) := do
  let (header, rest) ← takeExactly? 10 bytes
  let flags := ((header.drop 3).headD 0).toNat
  if header.take 3 != magic ++ [8] || 32 ≤ flags then none
  let rest ← if flags.testBit 2 then do
      let (size, rest) ← takeExactly? 2 rest
      (takeExactly? (natOfBytes size) rest).map Prod.snd
    else some rest
  let rest := if flags.testBit 3 then afterZero rest else rest
  let rest := if flags.testBit 4 then afterZero rest else rest
  return if flags.testBit 1 then rest.drop 2 else rest

def member? (bytes : List UInt8) : Option (List UInt8 × List UInt8) := do
  let body ← afterHeader? bytes
  let bits := bitsFromLow body
  let (out, rest) ← blocks? (bits.length + 1) #[] bits
  let text := out.toList
  let (check, rest) ← takeExactly? 8 (body.drop (body.length - rest.length / 8))
  if natOfBytes (check.take 4) = crc32.ofLow text &&
      natOfBytes (check.drop 4) = text.length % 0x100000000 then
    return (text, rest)
  else none

/-- Unpacks members as long as there are any; `fuel` bounds their number. -/
def members? : (fuel : Nat) → List UInt8 → Option (List UInt8)
  | 0, _ => none
  | fuel + 1, bytes => do
    let (text, rest) ← member? bytes
    if rest.all (· == 0) then return text
    return text ++ (← members? fuel rest)

def unpack? (bytes : List UInt8) : Option (List UInt8) := members? (bytes.length + 1) bytes

end LintEngine.Packing.Gzip
