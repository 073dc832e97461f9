/-
Texts packed in the xz format: streams of blocks with a check each, then the lengths of the blocks. A
block is made of chunks, whose packets follow on those of the chunks before unless a chunk says that it
starts anew.
-/
import LintEngine.Packing.Checksum
import LintEngine.Packing.Lzma

namespace LintEngine.Packing.Xz

/-! ## Chunks -/

/-- What is known between chunks: the text that copies cannot reach any more, and, once there has been a
chunk, the history since then; the settings, when they are known, and the odds. -/
structure Progress where
  passed : List UInt8 := []
  history : Option Lzma.History := none
  settings : Option Lzma.Settings := none
  odds : Array Nat := #[]

namespace Progress

/-- All of the text. -/
def text (p : Progress) : List UInt8 := p.passed ++ (p.history.elim [] fun h => h.out.toList)

/-- Puts the text out of the reach of copies. -/
def pass (p : Progress) : Progress := ⟨p.text, some {}, none, #[]⟩

/-- Adds bytes that are not packed. -/
def append? (p : Progress) (bytes : List UInt8) : Option Progress :=
  p.history.map fun h => { p with history := some { h with out := h.out ++ bytes.toArray } }

/-- Forgets what was learned, and the kinds of the last packets. -/
def restart (p : Progress) (s : Lzma.Settings) : Progress :=
  { p with
    settings := some s, odds := s.odds
    history := p.history.map fun h => { ({} : Lzma.History) with out := h.out } }

/-- Adds so many bytes that are packed. -/
def unpack? (p : Progress) (length : Nat) (packed : List UInt8) : Option Progress := do
  let settings ← p.settings
  let history ← p.history
  let goal := history.out.size + length
  let coder ← RangeCoder.start? p.odds packed
  let read := Lzma.packets settings goal length history
  let ((history, ended), coder) ← (read <* RangeCoder.refill).run coder
  if ended || history.out.size != goal || !coder.isFinished then none
  return { p with history, odds := coder.odds }

end Progress

/-- Reads a chunk with packets, after the byte that tells its kind. -/
def packets? (p : Progress) (kind : Nat) (bytes : List UInt8) : Option (Progress × List UInt8) := do
  let (lengths, rest) ← takeExactly? 4 bytes
  let length := kind % 32 * 0x10000 + natOfBytesDown (lengths.take 2) + 1
  let p := if 7 ≤ kind / 32 then p.pass else p
  let (p, rest) ← if 6 ≤ kind / 32 then do
      let (settings, rest) ← takeExactly? 1 rest
      let s ← Lzma.Settings.ofByte? (settings.headD 0)
      if s.before + s.literal ≤ 4 then some (p.restart s, rest) else none
    else if 5 ≤ kind / 32 then p.settings.map fun s => (p.restart s, rest)
    else some (p, rest)
  let (packed, rest) ← takeExactly? (natOfBytesDown (lengths.drop 2) + 1) rest
  return (← p.unpack? length packed, rest)

/-- Reads a chunk that is not packed, after the byte that tells its kind. -/
def stored? (p : Progress) (bytes : List UInt8) : Option (Progress × List UInt8) := do
  let (length, rest) ← takeExactly? 2 bytes
  let (stored, rest) ← takeExactly? (natOfBytesDown length + 1) rest
  return (← p.append? stored, rest)

/-- Unpacks chunks up to the end of a block; `fuel` bounds their number. -/
def chunks? : (fuel : Nat) → Progress → List UInt8 → Option (List UInt8 × List UInt8)
  | 0, _, _ | _, _, [] => none
  | fuel + 1, p, kind :: bytes =>
    if kind = 0 then some (p.text, bytes)
    else do
      let (p, rest) ← if 128 ≤ kind.toNat then packets? p kind.toNat bytes
        else match kind with
          | 1 => stored? p.pass bytes
          | 2 => stored? p bytes
          | _ => none
      chunks? fuel p rest

/-! ## Blocks -/

/-- Reads a number in groups of seven bits, the least first; all but the last are marked. There are at
most nine. -/
def number? : (count : Nat) → List UInt8 → Option (Nat × List UInt8)
  | 0, _ | _, [] => none
  | count + 1, b :: r =>
    if b < 128 then if b = 0 && count < 8 then none else some (b.toNat, r)
    else (number? count r).map fun (n, r) => (b.toNat - 128 + 128 * n, r)

def readNumber? (bytes : List UInt8) : Option (Nat × List UInt8) := number? 9 bytes

/-- The number of zeros that fill up so many bytes to a multiple of four. -/
def padding (length : Nat) : Nat := (4 - length % 4) % 4

/-- Takes so many zeros. -/
def takeZeros? (count : Nat) (bytes : List UInt8) : Option (List UInt8) := do
  let (zeros, rest) ← takeExactly? count bytes
  if zeros.all (· == 0) then return rest else none

/-- Takes bytes that are followed by their check. -/
def takeChecked? (length : Nat) (bytes : List UInt8) : Option (List UInt8 × List UInt8) := do
  let (content, rest) ← takeExactly? length bytes
  let (check, rest) ← takeExactly? 4 rest
  if natOfBytes check = crc32.ofLow content then return (content, rest) else none

/-- The kinds of check of a text that there are; for the longest one only its length counts. -/
inductive TextCheck
  | absent
  | short
  | long
  | digest
deriving DecidableEq

namespace TextCheck

def ofByte? : UInt8 → Option TextCheck
  | 0 => some absent
  | 1 => some short
  | 4 => some long
  | 10 => some digest
  | _ => none

def length : TextCheck → Nat
  | absent => 0
  | short => 4
  | long => 8
  | digest => 32

/-- Whether bytes are the check of a text. -/
def accepts (text check : List UInt8) : TextCheck → Bool
  | absent | digest => true
  | short => natOfBytes check == crc32.ofLow text
  | long => natOfBytes check == crc64.ofLow text

end TextCheck

/-- The lengths of a block: of its bytes without what fills it up, and of its text. -/
structure Lengths where
  packed : Nat
  text : Nat
deriving DecidableEq

/-- The number that stands for chunks among the ways to pack. -/
def chunkMethod : Nat := 0x21

/-- Reads a number if it is there. -/
def optionalNumber? (given : Bool) (bytes : List UInt8) : Option (Option Nat × List UInt8) :=
  if given then (readNumber? bytes).map fun (n, r) => (some n, r) else some (none, bytes)

/-- The lengths of the packed bytes and of the text that a block's header gives, if it does. -/
def headerLengths? (header : List UInt8) : Option (Option Nat × Option Nat) := do
  let flags := ((header.drop 1).headD 0).toNat
  if flags % 64 != 0 then none
  let (packed, rest) ← optionalNumber? (flags.testBit 6) (header.drop 2)
  let (text, rest) ← optionalNumber? (flags.testBit 7) rest
  let (method, rest) ← readNumber? rest
  let (length, rest) ← readNumber? rest
  let (reach, rest) ← takeExactly? length rest
  if method = chunkMethod && length = 1 && reach.all (· ≤ 40) && rest.all (· == 0) then
    return (packed, text)
  else none

def block? (check : TextCheck) (bytes : List UInt8) : Option (Lengths × List UInt8 × List UInt8) := do
  let length := 4 * (bytes.headD 0).toNat
  let (header, body) ← takeChecked? length bytes
  let (packed, whole) ← headerLengths? header
  let (text, rest) ← chunks? (body.length + 1) {} body
  let used := body.length - rest.length
  if packed.any (· != used) || whole.any (· != text.length) then none
  let rest ← takeZeros? (padding used) rest
  let (given, rest) ← takeExactly? check.length rest
  if check.accepts text given then
    return (⟨length + 4 + used + check.length, text.length⟩, text, rest)
  else none

/-- Unpacks blocks as long as there are any; `fuel` bounds their number. -/
def blocks? (check : TextCheck) :
    (fuel : Nat) → List UInt8 → Option (List Lengths × List UInt8 × List UInt8)
  | 0, _ | _, [] => none
  | fuel + 1, bytes =>
    if bytes.headD 0 = 0 then some ([], [], bytes)
    else do
      let (length, text, rest) ← block? check bytes
      let (lengths, more, rest) ← blocks? check fuel rest
      return (length :: lengths, text ++ more, rest)

/-! ## Streams -/

/-- The lengths of so many blocks. -/
def lengths? : (count : Nat) → List UInt8 → Option (List Lengths × List UInt8)
  | 0, bytes => some ([], bytes)
  | count + 1, bytes => do
    let (packed, rest) ← readNumber? bytes
    let (text, rest) ← readNumber? rest
    let (lengths, rest) ← lengths? count rest
    return (⟨packed, text⟩ :: lengths, rest)

/-- Takes the index of a stream, which has to agree with its blocks, and gives the index's length. -/
def index? (known : List Lengths) (bytes : List UInt8) : Option (Nat × List UInt8) := do
  let (count, rest) ← readNumber? (bytes.drop 1)
  if count != known.length then none
  let (lengths, rest) ← lengths? count rest
  let length := bytes.length - rest.length
  let length := length + padding length
  let (index, after) ← takeChecked? length bytes
  if lengths = known && (index.drop (bytes.length - rest.length)).all (· == 0) then
    return (length + 4, after)
  else none

/-- The bytes that a stream starts with, and those that it ends with. -/
def magic : List UInt8 := [0xFD, 0x37, 0x7A, 0x58, 0x5A, 0]
def endMagic : List UInt8 := [0x59, 0x5A]

def stream? (bytes : List UInt8) : Option (List UInt8 × List UInt8) := do
  let (start, rest) ← takeExactly? 6 bytes
  let (flags, rest) ← takeChecked? 2 rest
  if start != magic || flags.headD 0 != 0 then none
  let check ← TextCheck.ofByte? (flags.getLastD 0)
  let (lengths, text, rest) ← blocks? check (rest.length + 1) rest
  let (length, rest) ← index? lengths rest
  let (sum, rest) ← takeExactly? 4 rest
  let (footer, rest) ← takeExactly? 6 rest
  let (finish, rest) ← takeExactly? 2 rest
  if natOfBytes sum = crc32.ofLow footer && 4 * (natOfBytes (footer.take 4) + 1) = length &&
      footer.drop 4 = flags && finish = endMagic then
    return (text, rest)
  else none

/-- Unpacks streams, after each of which zeros may follow, four at a time; `fuel` bounds their number. -/
def streams? : (fuel : Nat) → List UInt8 → Option (List UInt8)
  | 0, _ => none
  | fuel + 1, bytes => do
    let (text, rest) ← stream? bytes
    let next := rest.dropWhile (· == 0)
    if (rest.length - next.length) % 4 != 0 then none
    if next.isEmpty then return text else return text ++ (← streams? fuel next)

def unpack? (bytes : List UInt8) : Option (List UInt8) := streams? (bytes.length + 1) bytes

end LintEngine.Packing.Xz
