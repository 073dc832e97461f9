/-
The table of answers decides the language: the pieces of a glob accept exactly the names of
`Language` (`accepts_iff_language`), whatever mixture of runs, sets and literals they are. A run is
worked off one character at a time, so the proof goes by the pieces and, within them, by the name.
-/
import LintEngine.Glob.Match

namespace LintEngine.Glob

/-! ## The language, piece by piece -/

theorem language_nil_iff (s : List Char) : Language [] s ↔ s = [] :=
  ⟨fun h => by cases h; rfl, fun h => h ▸ .nil⟩

theorem language_literal_iff (c : Char) (ps : List Piece) (s : List Char) :
    Language (.literal c :: ps) s ↔ ∃ t, s = c :: t ∧ Language ps t :=
  ⟨fun h => by cases h with | literal h => exact ⟨_, rfl, h⟩, fun ⟨_, hs, h⟩ => hs ▸ .literal h⟩

theorem language_anyOne_iff (ps : List Piece) (s : List Char) :
    Language (.anyOne :: ps) s ↔ ∃ c t, s = c :: t ∧ Language ps t :=
  ⟨fun h => by cases h with | anyOne h => exact ⟨_, _, rfl, h⟩, fun ⟨_, _, hs, h⟩ => hs ▸ .anyOne h⟩

theorem language_oneOf_iff (negated : Bool) (items : List Item) (ps : List Piece) (s : List Char) :
    Language (.oneOf negated items :: ps) s ↔
      ∃ c t, s = c :: t ∧ items.any (·.contains c) ≠ negated ∧ Language ps t :=
  ⟨fun h => by cases h with | oneOf hc h => exact ⟨_, _, rfl, hc, h⟩,
    fun ⟨_, _, hs, hc, h⟩ => hs ▸ .oneOf hc h⟩

theorem language_anyRun_iff (ps : List Piece) (s : List Char) :
    Language (.anyRun :: ps) s ↔ ∃ t, t <:+ s ∧ Language ps t :=
  ⟨fun h => by cases h with | anyRun h => exact ⟨_, List.suffix_append _ _, h⟩,
    fun ⟨_, ⟨_, hs⟩, h⟩ => hs ▸ .anyRun h⟩

/-- A piece for one character, in the terms of the matcher. -/
theorem language_cons_iff {p : Piece} (hp : p ≠ .anyRun) (ps : List Piece) (s : List Char) :
    Language (p :: ps) s ↔ ∃ c t, s = c :: t ∧ p.acceptsOne c = true ∧ Language ps t := by
  cases p with
  | literal c =>
    rw [language_literal_iff]
    constructor
    · rintro ⟨t, rfl, h⟩; exact ⟨c, t, rfl, by simp [Piece.acceptsOne], h⟩
    · rintro ⟨x, t, rfl, hx, h⟩
      have : c = x := by simpa [Piece.acceptsOne] using hx
      subst this; exact ⟨t, rfl, h⟩
  | anyRun => exact absurd rfl hp
  | anyOne => simp [language_anyOne_iff, Piece.acceptsOne]
  | oneOf negated items => simp [language_oneOf_iff, Piece.acceptsOne, bne_iff_ne]

/-! ## The answers at the end of a name -/

theorem accepts_nil (s : List Char) : accepts [] s = s.isEmpty := by
  cases s <;> simp [accepts, suffixAnswers]

theorem accepts_cons_nil {p : Piece} (hp : p ≠ .anyRun) (ps : List Piece) :
    accepts (p :: ps) [] = false := by
  cases p <;> first
    | exact absurd rfl hp
    | simp [accepts, suffixAnswers, stepBack]

theorem accepts_anyRun_nil (ps : List Piece) : accepts (.anyRun :: ps) [] = accepts ps [] := by
  have hlast : ∃ b, suffixAnswers ps [] = [b] := by
    induction ps with
    | nil => exact ⟨true, rfl⟩
    | cons p ps ih =>
      obtain ⟨b, hb⟩ := ih
      cases p <;> simp [suffixAnswers, stepBack, orOnward, hb]
  obtain ⟨b, hb⟩ := hlast
  simp [accepts, suffixAnswers, hb, orOnward]

/-! ## Main statement -/

/-- A run accepts a name when what comes after it accepts some suffix of the name. -/
theorem accepts_anyRun_iff (ps : List Piece) (s : List Char) :
    accepts (.anyRun :: ps) s = true ↔ ∃ t, t <:+ s ∧ accepts ps t = true := by
  -- a run takes the next character or nothing more
  induction s with
  | nil => simp [accepts_anyRun_nil]
  | cons c s ih =>
    rw [accepts_anyRun_cons, Bool.or_eq_true, ih]
    constructor
    · rintro (h | ⟨t, ht, h⟩)
      · exact ⟨_, List.suffix_refl _, h⟩
      · exact ⟨t, ht.trans (List.suffix_cons c s), h⟩
    · rintro ⟨t, ht, h⟩
      rcases List.suffix_cons_iff.1 ht with rfl | ht
      · exact .inl h
      · exact .inr ⟨t, ht, h⟩

theorem accepts_iff_language (ps : List Piece) (s : List Char) :
    accepts ps s = true ↔ Language ps s := by
  induction ps generalizing s with
  | nil => rw [accepts_nil, language_nil_iff, List.isEmpty_iff]
  | cons p ps ih =>
    by_cases hp : p = .anyRun
    · subst hp
      rw [accepts_anyRun_iff, language_anyRun_iff]
      simp only [ih]
    · rw [language_cons_iff hp]
      cases s with
      | nil => simp [accepts_cons_nil hp]
      | cons c s =>
        rw [accepts_cons hp, Bool.and_eq_true, ih]
        constructor
        · rintro ⟨hc, h⟩; exact ⟨c, s, rfl, hc, h⟩
        · rintro ⟨_, _, hs, hc, h⟩; cases hs; exact ⟨hc, h⟩

end LintEngine.Glob
