/-
What a scalar stands for. A plain scalar without a tag is nothing, a truth value or a number where it
is spelled like one, and a text otherwise; a tag asks for one of these kinds. How a number was spelled
is kept, since the keys of objects show it.
-/
import LintEngine.Value
import LintEngine.Yaml.Tag

namespace LintEngine.Yaml

/-! ## Numbers -/

inductive NumberForm
  | decimal | octal | hexadecimal | exponential
deriving DecidableEq, Repr

/-- A number as it is spelled: the zeros at the end of its fraction count, since they make a number of
places. -/
structure Numeral where
  value : Binary64
  form : NumberForm := .decimal
  places : Nat := 0

/-- The sign that a spelling starts with, and the rest. -/
def takeSign : List Char → Bool × List Char
  | '-' :: r => (true, r)
  | '+' :: r => (false, r)
  | r => (false, r)

/-- An integer in decimal digits with or without a sign, or in octal or hexadecimal digits. -/
def integer? : List Char → Option Numeral
  | '0' :: 'o' :: r => (digits? 8 r).map fun n => { value := .ofNat n, form := .octal }
  | '0' :: 'x' :: r => (digits? 16 r).map fun n => { value := .ofNat n, form := .hexadecimal }
  | cs =>
    let (negative, r) := takeSign cs
    (digits? 10 r).map fun n => { value := .ofDecimal negative n 0 }

/-- The exponent of a number: what follows its mark. -/
def exponent? (cs : List Char) : Option Int :=
  let (negative, r) := takeSign cs
  (digits? 10 r).map fun n => if negative then -n else n

/-- An infinity or not-a-number. -/
def special? (cs : List Char) : Option Binary64 :=
  let (negative, r) := takeSign cs
  if [".inf", ".Inf", ".INF"].contains (String.ofList r) then some (.infinite negative)
  else if [".nan", ".NaN", ".NAN"].contains (String.ofList cs) then some .nan
  else none

/-- A number with a point or an exponent: digits before or after the point, no point needed before an
exponent. -/
def fraction? (cs : List Char) : Option Numeral :=
  let (negative, r) := takeSign cs
  let isMark (c : Char) := c == 'e' || c == 'E'
  let mantissa := r.takeWhile (!isMark ·)
  let whole := mantissa.takeWhile Char.isDigit
  let power := r.dropWhile (!isMark ·)
  let pointed := (mantissa.drop whole.length).head? == some '.'
  let places := if pointed then mantissa.drop (whole.length + 1) else mantissa.drop whole.length
  if !pointed && (power.isEmpty || !places.isEmpty) then none
  else do
    let m ← digits? 10 (whole ++ places)
    let e ← if power.isEmpty then some 0 else exponent? power.tail
    return {
      value := .ofDecimal negative m (e - places.length)
      form := if power.isEmpty then .decimal else .exponential
      places := if power.isEmpty && cs.getLast? == some '0' then places.length else 0 }

/-- A number with a point or an exponent, or none that digits could spell. -/
def float? (cs : List Char) : Option Numeral :=
  ((special? cs).map fun value => { value }).or (fraction? cs)

/-! ## Scalars -/

inductive Style
  | plain | singleQuoted | doubleQuoted | block
deriving DecidableEq, Repr

structure Scalar where
  value : Value
  source : String
  style : Style
  form : NumberForm := .decimal
  places : Nat := 0

/-- Whether a spelling stands for nothing. -/
def isNull (text : String) : Bool := ["", "~", "null", "Null", "NULL"].contains text

/-- The truth value of a spelling. -/
def truth? (text : String) : Option Bool :=
  if ["true", "True", "TRUE"].contains text then some true
  else if ["false", "False", "FALSE"].contains text then some false
  else none

namespace Scalar

def ofText (style : Style) (source : String) : Scalar := { value := .text source, source, style }

/-- The scalar that a numeral is. -/
def ofNumeral (style : Style) (source : String) (n : Numeral) : Scalar :=
  { value := .number n.value, source, style, form := n.form, places := n.places }

/-- The scalar of a common kind that a spelling is. -/
def ofKind? (tag : String) (style : Style) (source : String) : Option Scalar :=
  if tag = Tag.null then
    if isNull source then some { value := .null, source, style } else none
  else if tag = Tag.bool then (truth? source).map fun b => { value := .bool b, source, style }
  else if tag = Tag.integer then (integer? source.toList).map (ofNumeral style source)
  else if tag = Tag.float then (float? source.toList).map (ofNumeral style source)
  else none

/-- The kinds that a plain scalar can be of. -/
def plainKinds : List String := [Tag.null, Tag.bool, Tag.integer, Tag.float]

/-- The scalar that a spelling is under a tag, of which the empty one says nothing. A spelling that is
not of the kind that its tag asks for is a text. -/
def resolve (tag : String) (style : Style) (source : String) : Scalar :=
  let kinds := if tag != "" then [tag] else if style = .plain then plainKinds else []
  (kinds.findSome? (ofKind? · style source)).getD (ofText style source)

end Scalar

end LintEngine.Yaml
