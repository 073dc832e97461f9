/-
Range coding: decisions between zero and one, each cut from a range of numbers in the proportion of its
odds. The odds of a decision belong to its context and are learned from the decisions made there.
-/
namespace LintEngine.Packing

/-- A range coder: the length of the range, the number's distance from its start, the bytes still to
come, and for each context how many times of 2048 a zero is expected. -/
structure RangeCoder where
  range : Nat
  code : Nat
  input : List UInt8
  odds : Array Nat

namespace RangeCoder

/-- What is read from a range coder; `none` when the bytes end too early. -/
abbrev Read (α : Type) := StateT RangeCoder Option α

/-- The odds before anything is learned. -/
def evenOdds : Nat := 1024

/-- The coder of some bytes, the first of which is zero. -/
def start? (odds : Array Nat) : List UInt8 → Option RangeCoder
  | 0 :: a :: b :: c :: d :: input =>
    some ⟨0xFFFFFFFF, [a, b, c, d].foldl (fun n x => 256 * n + x.toNat) 0, input, odds⟩
  | _ => none

/-- Takes one more byte when the range has become short. -/
def refill : Read Unit := fun c =>
  if 0x1000000 ≤ c.range then some ((), c)
  else
    match c.input with
    | [] => none
    | b :: r => some ((), ⟨256 * c.range, 256 * c.code + b.toNat, r, c.odds⟩)

def isFinished (c : RangeCoder) : Bool := c.input.isEmpty && c.code == 0

/-- Cuts the range: the part below `bound` means zero, the other one. -/
def cut (bound : Nat) (c : RangeCoder) : Nat × RangeCoder :=
  if c.code < bound then (0, ⟨bound, c.code, c.input, c.odds⟩)
  else (1, ⟨c.range - bound, c.code - bound, c.input, c.odds⟩)

/-- Odds that have moved towards what was decided, by a part of the way. -/
def learn (decided odds : Nat) : Nat :=
  if decided = 0 then odds + (2048 - odds) / 32 else odds - odds / 32

def bit (context : Nat) : Read Nat := do
  refill
  fun c =>
    let odds := c.odds[context]?.getD evenOdds
    let (decided, c) := c.cut (c.range / 2048 * odds)
    some (decided, ⟨c.range, c.code, c.input, c.odds.setIfInBounds context (learn decided odds)⟩)

/-- Reads a decision without a context, each way with the same share of the range. -/
def evenBit : Read Nat := do
  refill
  fun c =>
    let half := c.range / 2
    some (cut half ⟨2 * half, c.code, c.input, c.odds⟩)

/-- Reads so many decisions without a context, and gives the number that they spell after `n`. -/
def evenBits (n : Nat) : (count : Nat) → Read Nat
  | 0 => return n
  | count + 1 => do evenBits (2 * n + (← evenBit)) count

/-- Reads so many decisions, each in a context that all those before it tell: `path` is the number that
they spell after a one. The greatest comes first. -/
def path (base path : Nat) : (count : Nat) → Read Nat
  | 0 => return path
  | count + 1 => do
    let decided ← bit (base + path)
    RangeCoder.path base (2 * path + decided) count

/-- Reads a number of so many bits, the greatest one first. -/
def number (base count : Nat) : Read Nat := do
  return (← path base 1 count) - Nat.pow 2 count

/-- Reads a number of so many bits, the least one first; `path` is what those before it spell after a
one. -/
def numberUp (base path : Nat) : (count : Nat) → Read Nat
  | 0 => return 0
  | count + 1 => do
    let decided ← bit (base + path)
    return decided + 2 * (← numberUp base (2 * path + decided) count)

end RangeCoder

end LintEngine.Packing
