/-
The order of texts by UTF-16 code units, as a key on characters. Two characters compare by their
first differing unit, so the characters beyond U+FFFF, whose units are surrogates, come before
U+E000 to U+FFFF and after everything else. Main statement: away from that clash the order is the
order of code points (`unitRank_le_iff`).
-/
namespace LintEngine.Text

/-- The place of a character in the order of UTF-16 code units. -/
def unitRank (c : Char) : Nat :=
  if 0xE000 ≤ c.toNat ∧ c.toNat ≤ 0xFFFF then c.toNat + 0x110000 else c.toNat

/-- Whether one text comes no later than another in the order of UTF-16 code units. -/
def unitsLe : List Char → List Char → Bool
  | [], _ => true
  | _ :: _, [] => false
  | a :: s, b :: t => if a = b then unitsLe s t else unitRank a ≤ unitRank b

/-- Texts in the order of UTF-16 code units. -/
def sortByUnits (texts : List String) : List String :=
  texts.mergeSort fun a b => unitsLe a.toList b.toList

/-- A character whose UTF-16 form is one unit from U+E000 on. -/
def isHighUnit (c : Char) : Bool :=
  0xE000 ≤ c.toNat && c.toNat ≤ 0xFFFF

/-- A character whose UTF-16 form is two units. -/
def isAstral (c : Char) : Bool :=
  0xFFFF < c.toNat

theorem unitRank_le_iff {a b : Char} (h₁ : ¬(isAstral a ∧ isHighUnit b))
    (h₂ : ¬(isHighUnit a ∧ isAstral b)) : unitRank a ≤ unitRank b ↔ a.toNat ≤ b.toNat := by
  simp only [isAstral, isHighUnit, Bool.and_eq_true, decide_eq_true_eq] at h₁ h₂
  unfold unitRank
  split <;> split <;> omega

end LintEngine.Text
