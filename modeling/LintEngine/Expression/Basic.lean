/-
Regular expressions over characters, in the part of their syntax that globs are written in:
characters, sets, repetition, sequence, the two anchors, and the look-ahead that must fail. An
expression leads from one place of a text to another; a place is what is left of the text there, so
that the start of the text is the whole of it. Main statement: a repeated set that has every
character leads to every later place (`matches_star_set`).
-/
import LintEngine.Text.Blank
import Mathlib.Logic.Relation

namespace LintEngine

inductive Expression.Member
  | char (c : Char)
  /-- The characters from `lo` to `hi`, by code point. -/
  | range (lo hi : Char)
  /-- White space, or everything else. -/
  | blank (negated : Bool)
deriving DecidableEq, Repr

inductive Expression
  | empty
  | char (c : Char)
  | set (negated : Bool) (members : List Expression.Member)
  | seq (first second : Expression)
  /-- Any number of times in a row. -/
  | star (e : Expression)
  /-- Takes nothing, at the start of the text only. -/
  | start
  /-- Takes nothing, at the end of the text only. -/
  | stop
  /-- Takes nothing, where `e` does not match. -/
  | notAhead (e : Expression)
deriving Repr

namespace Expression

def Member.contains : Member → Char → Bool
  | .char c, x => c == x
  | .range lo hi, x => lo.toNat ≤ x.toNat && x.toNat ≤ hi.toNat
  | .blank negated, x => Text.isBlank x != negated

/-- The expression leads from the place `s` of a text to the place `t`. -/
def Matches (text : List Char) : Expression → List Char → List Char → Prop
  | .empty, s, t => s = t
  | .char c, s, t => s = c :: t
  | .set negated members, s, t => ∃ c, s = c :: t ∧ members.any (·.contains c) ≠ negated
  | .seq e f, s, t => ∃ u, e.Matches text s u ∧ f.Matches text u t
  | .star e, s, t => Relation.ReflTransGen (e.Matches text) s t
  | .start, s, t => s = text ∧ s = t
  | .stop, s, t => s = [] ∧ s = t
  | .notAhead e, s, t => (¬∃ u, e.Matches text s u) ∧ s = t

def Finds (e : Expression) (text : List Char) : Prop :=
  ∃ s t, s <:+ text ∧ e.Matches text s t

/-- A set that every character belongs to takes one character. -/
theorem matches_set_of_full {members : List Member} (h : ∀ c, members.any (·.contains c) = true)
    (text s t : List Char) : (set false members).Matches text s t ↔ ∃ c, s = c :: t := by
  simp [Matches, h]

theorem matches_star_set {members : List Member} (h : ∀ c, members.any (·.contains c) = true)
    (text s t : List Char) : (star (set false members)).Matches text s t ↔ t <:+ s := by
  constructor
  · intro hm
    induction hm with
    | refl => exact List.suffix_refl s
    | tail _ hstep ih =>
      obtain ⟨c, rfl⟩ := (matches_set_of_full h text _ _).1 hstep
      exact (List.suffix_cons c _).trans ih
  · rintro ⟨w, rfl⟩
    induction w with
    | nil => exact .refl
    | cons c w ih => exact .head ((matches_set_of_full h text _ _).2 ⟨c, rfl⟩) ih

end Expression

end LintEngine
