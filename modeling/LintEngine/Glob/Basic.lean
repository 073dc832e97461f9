/-
Shell-style globs over whole texts. A pattern is read from left to right into pieces: `*` is any
run of characters, `?` any one character, `[…]` one character of a set (of its complement after
`!`), and everything else stands for itself, also a `[` that is never closed. Main statement: the
reading of a pattern unfolds piece by piece (`readPieces_bracket`, `readPieces_skip`).
-/
import LintEngine.Text.Units

namespace LintEngine

namespace Glob

/-- A member of a bracket: one character, or the characters from `lo` to `hi`. -/
inductive Item
  | one (c : Char)
  | range (lo hi : Char)
deriving DecidableEq, Repr

inductive Piece
  | literal (c : Char)
  | anyRun
  | anyOne
  | oneOf (negated : Bool) (items : List Item)
deriving DecidableEq, Repr

/-! ## Brackets -/

/-- The members of a bracket from left to right. `x-y` is a range, which is left out when its ends
are in the wrong order; a `-` at either end stands for itself. -/
def readItems : List Char → List Item
  | lo :: '-' :: hi :: r =>
    if Text.unitRank lo ≤ Text.unitRank hi then .range lo hi :: readItems r else readItems r
  | c :: r => .one c :: readItems r
  | [] => []

/-- The set that the body of a bracket describes. -/
def readBody : List Char → Piece
  | '!' :: r => .oneOf true (readItems r)
  | body => .oneOf false (readItems body)

/-- The number of characters up to the first `]`, when there is one. -/
def untilClose : List Char → Option Nat
  | [] => none
  | c :: r => if c = ']' then some 0 else (untilClose r).map (· + 1)

/-- The length of the body of a bracket whose `[` has just been read: the closing `]` is searched
after an optional `!` and then an optional `]`. -/
def bodyLength? : List Char → Option Nat
  | '!' :: ']' :: r => (untilClose r).map (· + 2)
  | '!' :: r => (untilClose r).map (· + 1)
  | ']' :: r => (untilClose r).map (· + 1)
  | s => untilClose s

/-! ## Patterns -/

/-- The pieces of a pattern whose first `skip` characters are already read. A run of `*` is one
piece. -/
def readPieces : (skip : Nat) → List Char → List Piece
  | _, [] => []
  | skip + 1, _ :: r => readPieces skip r
  | 0, c :: r =>
    if c = '*' then
      if r.head? = some '*' then readPieces 0 r else .anyRun :: readPieces 0 r
    else if c = '?' then .anyOne :: readPieces 0 r
    else if c = '[' then
      match bodyLength? r with
      | none => .literal '[' :: readPieces 0 r
      | some n => readBody (r.take n) :: readPieces (n + 1) r
    else .literal c :: readPieces 0 r

theorem readPieces_skip (n : Nat) (s : List Char) : readPieces n s = readPieces 0 (s.drop n) := by
  induction s generalizing n with
  | nil => cases n <;> simp [readPieces]
  | cons c r ih =>
    cases n with
    | zero => rfl
    | succ n => simp only [readPieces, List.drop_succ_cons]; exact ih n

theorem readPieces_bracket {r : List Char} {n : Nat} (h : bodyLength? r = some n) :
    readPieces 0 ('[' :: r) = readBody (r.take n) :: readPieces 0 (r.drop (n + 1)) := by
  rw [← readPieces_skip]
  simp [readPieces, h]

/-! ## Sense of a bracket -/

def Item.contains : Item → Char → Bool
  | .one c, x => c == x
  | .range lo hi, x => lo.toNat ≤ x.toNat && x.toNat ≤ hi.toNat

/-- Whether the ends of a range are in the order of code points; a set with any other range has no
valid expression. -/
def Item.isOrdered : Item → Bool
  | .one _ => true
  | .range lo hi => lo.toNat ≤ hi.toNat

def Piece.isOrdered : Piece → Bool
  | .oneOf _ items => items.all Item.isOrdered
  | _ => true

end Glob

structure Glob where
  pieces : List Glob.Piece
deriving DecidableEq, Repr

namespace Glob

/-- Reads a pattern; every text is one. -/
def ofString (pattern : String) : Glob :=
  ⟨readPieces 0 pattern.toList⟩

def isValid (g : Glob) : Bool :=
  g.pieces.all Piece.isOrdered

end Glob

end LintEngine
