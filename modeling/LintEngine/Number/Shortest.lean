/-
The shortest decimal of a binary64 number: the fewest digits that read back as the number, and of
those the nearest to it. The search works in exact arithmetic on natural numbers; the layout of the
digits is a second step with its own rule (`Layout`).
-/
import LintEngine.Number.Binary64

namespace LintEngine

/-- A positive decimal: `digits`, read as a natural number, times `10^exponent`. -/
structure Decimal where
  digits : Nat
  exponent : Int
deriving DecidableEq, Repr

namespace Binary64

/-- Four times the ends of the interval of reals that round to `m · 2^e`, in units of `2^e`. Below a
power of two the next number is only half a step away. -/
def interval (m : Nat) (e : Int) : Nat × Nat :=
  (if m = Nat.pow 2 52 ∧ minExponent < e then 4 * m - 1 else 4 * m - 2, 4 * m + 2)

/-- The numerator and denominator of `2^e / 10^k`. -/
def unitRatio (e k : Int) : Nat × Nat :=
  ((if 0 ≤ e then Nat.pow 2 e.toNat else 1) * (if 0 ≤ k then 1 else Nat.pow 10 (-k).toNat),
    (if 0 ≤ e then 1 else Nat.pow 2 (-e).toNat) * (if 0 ≤ k then Nat.pow 10 k.toNat else 1))

/-- Whether `d · 10^k` rounds to `m · 2^e`: it lies between the ends, which count for an even `m`. -/
def readsBack (m : Nat) (e : Int) (d : Nat) (k : Int) : Bool :=
  let (num, den) := unitRatio e k
  let (lo, hi) := interval m e
  let x := 4 * d * den
  if m % 2 = 0 then lo * num ≤ x && x ≤ hi * num else lo * num < x && x < hi * num

/-- The decimal on the grid of `10^k` that reads back and is nearest to `m · 2^e`, a tie going to
the even one. -/
def onGrid? (m : Nat) (e k : Int) : Option Decimal :=
  let (num, den) := unitRatio e k
  let below := m * num / den
  let twice := 2 * (m * num % den)
  let up := below + 1
  let nearUp := den < twice || (twice == den && below % 2 == 1)
  let (first, second) := if nearUp then (up, below) else (below, up)
  if readsBack m e first k then some ⟨first, k⟩
  else if readsBack m e second k then some ⟨second, k⟩
  else none

/-- The first grid with a hit, from coarse to fine. -/
def searchGrids (m : Nat) (e : Int) : Nat → Int → Decimal
  | 0, k => ⟨m, k⟩
  | fuel + 1, k =>
    match onGrid? m e k with
    | some d => if d.digits = 0 then searchGrids m e fuel (k - 1) else d
    | none => searchGrids m e fuel (k - 1)

/-- The shortest decimal of `m · 2^e` for a positive `m`. Eighteen grids, the first with a step above
the number, always hold a hit. -/
def shortest (m : Nat) (e : Int) : Decimal :=
  let (num, den) := unitRatio e 0
  let size : Int := (decimalLength (m * num) : Int) - decimalLength den
  searchGrids m e 20 (size + 1)

end Binary64

/-! ## Layout -/

/-- Where a decimal text is positional: the number of digits before the point may reach
`positionalMax`, and as many zeros as `leadingZeros` may stand between the point and the digits. -/
structure Layout where
  positionalMax : Nat
  leadingZeros : Nat

namespace Layout

/-- Up to twenty-one digits before the point, up to six zeros after it. -/
def plain : Layout := ⟨21, 6⟩

def write (l : Layout) (d : Decimal) : String :=
  let digits := Nat.toDigits 10 d.digits
  let n : Int := digits.length
  let point : Int := n + d.exponent
  let text : List Char :=
    if n ≤ point ∧ point ≤ l.positionalMax then digits ++ List.replicate (point - n).toNat '0'
    else if 0 < point ∧ point ≤ l.positionalMax then
      digits.take point.toNat ++ '.' :: digits.drop point.toNat
    else if -(l.leadingZeros : Int) < point ∧ point ≤ 0 then
      '0' :: '.' :: (List.replicate (-point).toNat '0' ++ digits)
    else
      let exponent := point - 1
      let sign := if exponent < 0 then '-' else '+'
      let mantissa := match digits with
        | [] => []
        | [c] => [c]
        | c :: r => c :: '.' :: r
      mantissa ++ 'e' :: sign :: Nat.toDigits 10 exponent.natAbs
  String.ofList text

end Layout

namespace Binary64

/-- The text of a number: its shortest decimal in the plain layout, a zero without its sign. -/
def text : Binary64 → String
  | .nan => "NaN"
  | .infinite negative => if negative then "-Infinity" else "Infinity"
  | .finite negative m e =>
    if m = 0 then "0"
    else (if negative then "-" else "") ++ Layout.plain.write (shortest m e)

end Binary64

end LintEngine
