/-
Texts packed as packets: a literal, or a copy of what came before at a new distance or at a recent one.
The decisions that spell a packet depend on the kinds of the last ones, and a literal's on the bytes
around it.
-/
import LintEngine.Packing.Bits
import LintEngine.Packing.RangeCoder

namespace LintEngine.Packing.Lzma

open RangeCoder (Read bit number numberUp evenBits)

/-! ## What is known before a packet -/

/-- How many bits tell contexts apart: of the byte before a literal, of a literal's place, and of a
packet's place. -/
structure Settings where
  before : Nat
  literal : Nat
  place : Nat

def Settings.ofByte? (b : UInt8) : Option Settings :=
  let n := b.toNat
  if n < 225 then some ⟨n % 9, n / 9 % 5, n / 45⟩ else none

/-- What came before a packet: the text, the kinds of the last packets as one number below twelve, and
the last distances, the newest first. -/
structure History where
  out : Array UInt8 := #[]
  kinds : Nat := 0
  recent : List Nat := [0, 0, 0, 0]

namespace History

def afterLiteral (h : History) : Bool := h.kinds < 7

/-- The byte at a distance back, which is counted from zero. -/
def back? (h : History) (distance : Nat) : Option UInt8 :=
  if distance < h.out.size then h.out[h.out.size - 1 - distance]? else none

def addLiteral (h : History) (b : UInt8) : History :=
  let kinds := if h.kinds < 4 then 0 else if h.kinds < 10 then h.kinds - 3 else h.kinds - 6
  ⟨h.out.push b, kinds, h.recent⟩

/-- Repeats so many bytes from a distance back. -/
def copy? (distance : Nat) : (length : Nat) → Array UInt8 → Option (Array UInt8)
  | 0, out => some out
  | length + 1, out =>
    if distance < out.size then
      copy? distance length (out.push (out[out.size - 1 - distance]?.getD 0))
    else none

/-- Adds a copy from the newest distance; its kind depends on whether a literal came before it. -/
def addCopy? (h : History) (recent : List Nat) (length literal other : Nat) : Option History := do
  let out ← copy? (recent.headD 0) length h.out
  return ⟨out, if h.kinds < 7 then literal else other, recent⟩

end History

/-! ## Contexts -/

/-- The first contexts of each decision; those of the lengths come twice, for copies at new and at recent
distances. -/
def copyContexts : Nat := 0
def recentContexts : Nat := 192
def firstContexts : Nat := 204
def secondContexts : Nat := 216
def thirdContexts : Nat := 228
def longContexts : Nat := 240
def slotContexts : Nat := 432
def distanceContexts : Nat := 688
def alignContexts : Nat := 816
def newLengthContexts : Nat := 832
def recentLengthContexts : Nat := 1346
def literalContexts : Nat := 1860

/-- The number of contexts. -/
def Settings.contexts (s : Settings) : Nat := literalContexts + 768 * Nat.pow 2 (s.before + s.literal)

/-- Odds of which nothing is learned yet. -/
def Settings.odds (s : Settings) : Array Nat := Array.replicate s.contexts RangeCoder.evenOdds

/-! ## Packets -/

/-- Reads the rest of a literal whose bits have agreed so far with those of the byte at the newest
distance, `guide`. -/
def guided (base guide path : Nat) : (count : Nat) → Read Nat
  | 0 => return path
  | count + 1 => do
    let expected := guide / Nat.pow 2 count % 2
    let decided ← bit (base + 256 * (1 + expected) + path)
    if decided = expected then guided base guide (2 * path + decided) count
    else RangeCoder.path base (2 * path + decided) count

def literal (s : Settings) (h : History) : Read UInt8 := do
  let before := (h.out.back?.getD 0).toNat
  let context := h.out.size % Nat.pow 2 s.literal * Nat.pow 2 s.before + before / Nat.pow 2 (8 - s.before)
  let base := literalContexts + 768 * context
  let n ← if h.afterLiteral then RangeCoder.path base 1 8
    else do
      let guide ← (h.back? (h.recent.headD 0) : Read UInt8)
      guided base guide.toNat 1 8
  return UInt8.ofNat n

def length (base place : Nat) : Read Nat := do
  if (← bit base) = 0 then return 2 + (← number (base + 2 + 8 * place) 3)
  else if (← bit (base + 1)) = 0 then return 10 + (← number (base + 130 + 8 * place) 3)
  else return 18 + (← number (base + 258) 8)

/-- Reads the distance of a copy of some length: a slot, which tells the two greatest bits, and the others
below them. -/
def distance (length : Nat) : Read Nat := do
  let slot ← number (slotContexts + 64 * min (length - 2) 3) 6
  if slot < 4 then return slot
  let below := slot / 2 - 1
  let least := (2 + slot % 2) * Nat.pow 2 below
  if slot < 14 then return least + (← numberUp (distanceContexts + least - slot) 1 below)
  else return least + 16 * (← evenBits 0 (below - 4)) + (← numberUp alignContexts 1 4)

/-- Reads which of the recent distances is meant, or that one byte is copied from the newest. -/
def which (kinds place : Nat) : Read (Option Nat) := do
  if (← bit (firstContexts + kinds)) = 0 then
    if (← bit (longContexts + 16 * kinds + place)) = 0 then return none else return some 0
  else if (← bit (secondContexts + kinds)) = 0 then return some 1
  else return some (2 + (← bit (thirdContexts + kinds)))

/-- The distance that stands for the end. -/
def endDistance : Nat := 0xFFFFFFFF

/-- Reads a copy; there is none at the end. -/
def copy (h : History) (place : Nat) : Read (Option History) := do
  if (← bit (recentContexts + h.kinds)) = 0 then
    let length ← length newLengthContexts place
    let distance ← distance length
    if distance = endDistance then return none
    return some (← h.addCopy? (distance :: h.recent.take 3) length 7 10)
  match ← which h.kinds place with
  | none => return some (← h.addCopy? h.recent 1 9 11)
  | some which =>
    let (_, recent) ← (toFront? which h.recent : Read (Nat × List Nat))
    let length ← length recentLengthContexts place
    return some (← h.addCopy? recent length 8 11)

def packet (s : Settings) (h : History) : Read (Option History) := do
  let place := h.out.size % Nat.pow 2 s.place
  if (← bit (copyContexts + 16 * h.kinds + place)) = 0 then
    return some (h.addLiteral (← literal s h))
  else copy h place

/-- Reads packets until the text has a length, and tells whether the end has been read before. Each packet
adds to the text, so the number of packets is bounded by `fuel`, the length. -/
def packets (s : Settings) (goal : Nat) : (fuel : Nat) → History → Read (History × Bool)
  | 0, h => return (h, false)
  | fuel + 1, h => do
    if goal ≤ h.out.size then return (h, false)
    match ← packet s h with
    | none => return (h, true)
    | some h => packets s goal fuel h

/-! ## Texts -/

/-- The bytes that a text starts with that was packed with the usual settings. -/
def magic : List UInt8 := [0x5D, 0, 0]

/-- The length that stands for one that is not known. -/
def unknownLength : Nat := 0xFFFFFFFFFFFFFFFF

/-- A bound on the number of packets that a byte can spell: even the decisions that cost least take more
than a three hundredth of a bit. -/
def packetsPerByte : Nat := 2400

/-- Unpacks a text: its settings, the greatest distance, its length, and its packets, which end with a
mark when the length is not known. -/
def unpack? (bytes : List UInt8) : Option (List UInt8) := do
  let (header, body) ← takeExactly? 13 bytes
  let settings ← Settings.ofByte? (header.headD 0)
  let goal := natOfBytes (header.drop 5)
  let coder ← RangeCoder.start? settings.odds body
  let read := packets settings goal (packetsPerByte * body.length) {}
  let ((h, ended), coder) ← (read <* RangeCoder.refill).run coder
  let whole := if goal = unknownLength then ended else h.out.size == goal && !ended
  if whole && coder.isFinished then return h.out.toList else none

end LintEngine.Packing.Lzma
