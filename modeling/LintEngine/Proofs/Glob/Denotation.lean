/-
Matching against a pattern, for every pattern and every name. The reader and the expression put the
two ends of a range in different orders, by code units and by code points; the two differ on pairs of
a character beyond U+FFFF and one from U+E000 to U+FFFF. Without such a pair the answer is that of
the language that the pattern denotes, and the pattern's expression, read back from its text, gives
the same answer (`matches?_iff_denotes`). A pattern has no valid expression exactly when some range
leads from a character beyond U+FFFF back to one from U+E000 to U+FFFF (`isValid_iff`).
-/
import LintEngine.Proofs.Glob.Expression
import LintEngine.Proofs.Glob.Reading

namespace LintEngine.Glob

open Text

/-- The order of code units and that of code points differ on two characters. -/
def Clash (a b : Char) : Prop :=
  (isAstral a ∧ isHighUnit b) ∨ (isHighUnit a ∧ isAstral b)

/-- A range of the pattern leads from a character beyond U+FFFF back to one from U+E000 to U+FFFF. -/
def LeadsBack (pattern : String) : Prop :=
  ∃ lo hi, HasRange pattern.toList lo hi ∧ isAstral lo = true ∧ isHighUnit hi = true

/-! ## The ends of a range -/

theorem isKept_range (lo hi : Char) :
    (Item.range lo hi).isKept = true ↔ unitRank lo ≤ unitRank hi :=
  decide_eq_true_iff

theorem isOrdered_range (lo hi : Char) :
    (Item.range lo hi).isOrdered = true ↔ lo.toNat ≤ hi.toNat :=
  decide_eq_true_iff

theorem isKept_range_iff {lo hi : Char} (h : ¬Clash lo hi) :
    (Item.range lo hi).isKept = true ↔ lo.toNat ≤ hi.toNat := by
  unfold Clash at h
  rw [not_or] at h
  rw [isKept_range, unitRank_le_iff h.1 h.2]

/-- A range that the reader keeps and the expression refuses. -/
theorem kept_disordered_iff (lo hi : Char) :
    ((Item.range lo hi).isKept = true ∧ ¬(Item.range lo hi).isOrdered = true) ↔
      isAstral lo = true ∧ isHighUnit hi = true := by
  have hlo : lo.toNat ≤ 0x10FFFF := by
    rcases lo.valid with h | h <;> simp only [Char.toNat, UInt32.toNat] at * <;> omega
  -- the two orders part only where the first unit of a pair comes before U+E000
  rw [isKept_range, isOrdered_range]
  simp only [unitRank, isAstral, isHighUnit, Bool.and_eq_true, decide_eq_true_eq]
  split <;> split <;> omega

/-! ## Leaving out ranges -/

/-- A range that is left out without a clash contains nothing. -/
theorem any_filter_isKept {items : List Item} (h : ∀ lo hi, .range lo hi ∈ items → ¬Clash lo hi)
    (c : Char) : (items.filter Item.isKept).any (·.contains c) = items.any (·.contains c) := by
  induction items with
  | nil => rfl
  | cons i items ih =>
    have ih := ih fun lo hi hm => h lo hi (List.mem_cons_of_mem i hm)
    by_cases hk : i.isKept = true
    · rw [List.filter_cons_of_pos hk, List.any_cons, List.any_cons, ih]
    · rw [List.filter_cons_of_neg hk, List.any_cons, ih]
      cases i with
      | one x => exact absurd rfl hk
      | range lo hi =>
        rw [isKept_range_iff (h lo hi (List.mem_cons_self ..))] at hk
        have : (Item.range lo hi).contains c = false := by
          simp only [Item.contains, Bool.and_eq_false_iff, decide_eq_false_iff_not]; omega
        rw [this, Bool.false_or]

theorem language_kept_iff {ps : List Piece}
    (h : ∀ negated items, .oneOf negated items ∈ ps → ∀ lo hi, .range lo hi ∈ items → ¬Clash lo hi)
    (s : List Char) : Language (ps.map Piece.kept) s ↔ Language ps s := by
  induction ps generalizing s with
  | nil => rfl
  | cons p ps ih =>
    have ih := ih fun negated items hm => h negated items (List.mem_cons_of_mem p hm)
    cases p with
    | literal c => simp only [List.map_cons, Piece.kept, language_literal_iff, ih]
    | anyRun => simp only [List.map_cons, Piece.kept, language_anyRun_iff, ih]
    | anyOne => simp only [List.map_cons, Piece.kept, language_anyOne_iff, ih]
    | oneOf negated items =>
      have hitems := any_filter_isKept (h negated items (List.mem_cons_self ..))
      simp only [List.map_cons, Piece.kept, language_oneOf_iff, hitems, ih]

/-! ## Validity -/

theorem isOrdered_kept_iff (p : Piece) : p.kept.isOrdered = true ↔
    ∀ negated items, p = .oneOf negated items → ∀ lo hi, .range lo hi ∈ items →
      ¬(isAstral lo = true ∧ isHighUnit hi = true) := by
  cases p with
  | literal c => simp [Piece.kept, Piece.isOrdered]
  | anyRun => simp [Piece.kept, Piece.isOrdered]
  | anyOne => simp [Piece.kept, Piece.isOrdered]
  | oneOf negated items =>
    simp only [Piece.kept, Piece.isOrdered, List.all_eq_true, List.mem_filter, ← kept_disordered_iff]
    constructor
    · rintro h _ _ ⟨⟩ lo hi hm ⟨hk, ho⟩
      exact ho (h _ ⟨hm, hk⟩)
    · rintro h i ⟨hm, hk⟩
      cases i with
      | one c => rfl
      | range lo hi =>
        by_contra ho
        exact h negated items rfl lo hi hm ⟨hk, ho⟩

theorem pieces_ofString {pattern : String} {ps : List Piece} (h : Reads pattern.toList ps) :
    (ofString pattern).pieces = ps.map Piece.kept :=
  readPieces_eq_of_reads h

theorem isValid_iff_of_reads {pattern : String} {ps : List Piece} (h : Reads pattern.toList ps) :
    (ofString pattern).isValid = true ↔ ∀ negated items, .oneOf negated items ∈ ps →
      ∀ lo hi, .range lo hi ∈ items → ¬(isAstral lo = true ∧ isHighUnit hi = true) := by
  simp only [isValid, pieces_ofString h, List.all_map, List.all_eq_true, Function.comp_apply,
    isOrdered_kept_iff]
  constructor
  · intro hp negated items hm; exact hp _ hm negated items rfl
  · rintro hp p hm negated items rfl; exact hp negated items hm

theorem isValid_iff (pattern : String) : (ofString pattern).isValid = true ↔ ¬LeadsBack pattern := by
  constructor
  · rintro h ⟨lo, hi, ⟨ps, negated, items, hps, hm, hi'⟩, hbad⟩
    exact (isValid_iff_of_reads hps).1 h negated items hm lo hi hi' hbad
  · intro h
    obtain ⟨ps, hps⟩ := exists_reads pattern.toList
    rw [isValid_iff_of_reads hps]
    intro negated items hm lo hi hi' hbad
    exact h ⟨lo, hi, ⟨ps, negated, items, hps, hm, hi'⟩, hbad⟩

/-! ## The answer -/

theorem language_pieces_iff {pattern : String}
    (h : ∀ lo hi, HasRange pattern.toList lo hi → ¬Clash lo hi) (s : List Char) :
    Language (ofString pattern).pieces s ↔ Denotes pattern.toList s := by
  have hlang (ps : List Piece) (hps : Reads pattern.toList ps) :
      Language (ofString pattern).pieces s ↔ Language ps s := by
    rw [pieces_ofString hps]
    exact language_kept_iff
      (fun negated items hm lo hi hi' => h lo hi ⟨ps, negated, items, hps, hm, hi'⟩) s
  constructor
  · intro hl
    obtain ⟨ps, hps⟩ := exists_reads pattern.toList
    exact ⟨ps, hps, (hlang ps hps).1 hl⟩
  · rintro ⟨ps, hps, hl⟩
    exact (hlang ps hps).2 hl

/-- Matching never fails where no range pairs a character beyond U+FFFF with one from U+E000 to
U+FFFF: the answer is yes exactly for the names that the pattern denotes, and the expression that
the pattern is written as, read back from its text, finds exactly those too. -/
theorem matches?_iff_denotes (pattern name : String)
    (h : ∀ lo hi, HasRange pattern.toList lo hi → ¬Clash lo hi) :
    ∃ answer e, (ofString pattern).matches? name = .ok answer ∧
      Expression.read (ofString pattern).source.toList = .ok e ∧
      (answer = true ↔ Denotes pattern.toList name.toList) ∧
      (e.Finds name.toList ↔ Denotes pattern.toList name.toList) := by
  have hvalid : (ofString pattern).isValid = true := by
    rw [isValid_iff]
    rintro ⟨lo, hi, hr, hbad⟩
    exact h lo hi hr (.inl hbad)
  refine ⟨accepts (ofString pattern).pieces name.toList, expression (ofString pattern).pieces,
    ?_, ?_, ?_, ?_⟩
  · rw [matches?, if_pos hvalid]
  · rw [read_source, if_pos hvalid]
  · rw [accepts_iff_language, language_pieces_iff h]
  · rw [finds_expression_iff, language_pieces_iff h]

/-- A line break and a character beyond U+FFFF are characters like others, and so is an open bracket
that is never closed. -/
theorem denotes_beside_emoji_range :
    (∀ lo hi, HasRange "*[!😀-😎-]?.[".toList lo hi → ¬Clash lo hi) ∧
      Denotes "*[!😀-😎-]?.[".toList "docs/\nx😎.[".toList := by
  have h : ∀ lo hi, HasRange "*[!😀-😎-]?.[".toList lo hi → ¬Clash lo hi := by
    intro lo hi hr
    obtain ⟨hlo, hhi⟩ := mem_of_hasRange hr
    have hlow : ("*[!😀-😎-]?.[".toList.all fun c => !isHighUnit c) = true := by decide
    have hlo' : isHighUnit lo = false := by simpa using List.all_eq_true.1 hlow lo hlo
    have hhi' : isHighUnit hi = false := by simpa using List.all_eq_true.1 hlow hi hhi
    simp [Clash, hlo', hhi']
  obtain ⟨answer, e, hanswer, -, hiff, -⟩ := matches?_iff_denotes "*[!😀-😎-]?.[" "docs/\nx😎.[" h
  have hyes : (ofString "*[!😀-😎-]?.[").matches? "docs/\nx😎.[" = .ok true := by decide
  rw [hyes] at hanswer
  cases hanswer
  exact ⟨h, hiff.1 rfl⟩

end LintEngine.Glob
