/-
What a pattern says, as a relation between its text and its pieces that is written down without the
reader: runs of `*`, `?`, closed brackets with all the ranges that stand in them, brackets that are
never closed, and characters for themselves. Every pattern says something (`exists_reads`), and the
reader finds it, except that it leaves out the ranges whose ends are in the wrong order of code
units (`readPieces_eq_of_reads`).
-/
import LintEngine.Glob.Match
import Mathlib.Data.List.Basic

namespace LintEngine.Glob

/-! ## What a pattern says -/

/-- The members of a bracket's body as they are written, whatever the order of a range's ends. -/
def writtenItems : List Char → List Item
  | lo :: '-' :: hi :: r => .range lo hi :: writtenItems r
  | c :: r => .one c :: writtenItems r
  | [] => []

/-- A closed bracket, from behind its `[` on: whether it is negated, its body, and what follows. The
body is closed by the first `]` behind its first character, which may itself be a `]`. -/
inductive Bracket : List Char → Bool → List Char → List Char → Prop
  | plain {first : Char} {mid rest : List Char} : first ≠ '!' → ']' ∉ mid →
      Bracket (first :: mid ++ ']' :: rest) false (first :: mid) rest
  | negated {first : Char} {mid rest : List Char} : ']' ∉ mid →
      Bracket ('!' :: first :: mid ++ ']' :: rest) true (first :: mid) rest

/-- The pieces of a pattern, with every range of a closed bracket. -/
inductive Reads : List Char → List Piece → Prop
  | nil : Reads [] []
  | run {n : Nat} {p : List Char} {ps : List Piece} : p.head? ≠ some '*' → Reads p ps →
      Reads (List.replicate (n + 1) '*' ++ p) (.anyRun :: ps)
  | one {p : List Char} {ps : List Piece} : Reads p ps → Reads ('?' :: p) (.anyOne :: ps)
  | bracket {p body rest : List Char} {negated : Bool} {ps : List Piece} :
      Bracket p negated body rest → Reads rest ps →
      Reads ('[' :: p) (.oneOf negated (writtenItems body) :: ps)
  | unclosed {p : List Char} {ps : List Piece} : (∀ negated body rest, ¬Bracket p negated body rest) →
      Reads p ps → Reads ('[' :: p) (.literal '[' :: ps)
  | literal {c : Char} {p : List Char} {ps : List Piece} : c ∉ ['*', '?', '['] → Reads p ps →
      Reads (c :: p) (.literal c :: ps)

/-- A name is in the language of a pattern. -/
def Denotes (pattern name : List Char) : Prop :=
  ∃ ps, Reads pattern ps ∧ Language ps name

/-- A range stands in a closed bracket of a pattern. -/
def HasRange (pattern : List Char) (lo hi : Char) : Prop :=
  ∃ ps negated items, Reads pattern ps ∧ .oneOf negated items ∈ ps ∧ .range lo hi ∈ items

theorem mem_of_range_mem {body : List Char} {lo hi : Char} (h : .range lo hi ∈ writtenItems body) :
    lo ∈ body ∧ hi ∈ body := by
  fun_induction writtenItems body with
  | case1 a b r ih =>
    rcases List.mem_cons.1 h with h | h
    · cases h; simp
    · obtain ⟨hlo, hhi⟩ := ih h; simp [hlo, hhi]
  | case2 c r _ ih =>
    rcases List.mem_cons.1 h with h | h
    · cases h
    · obtain ⟨hlo, hhi⟩ := ih h; simp [hlo, hhi]
  | case3 => cases h

theorem Bracket.body_subset {p body rest : List Char} {negated : Bool}
    (h : Bracket p negated body rest) : body ⊆ p ∧ rest ⊆ p := by
  cases h <;> constructor <;> intro c hc <;> simp only [List.mem_cons, List.mem_append] at hc ⊢ <;> tauto

theorem mem_of_reads {p : List Char} {ps : List Piece} (h : Reads p ps) {negated : Bool}
    {items : List Item} {lo hi : Char} (hm : .oneOf negated items ∈ ps) (hi' : .range lo hi ∈ items) :
    lo ∈ p ∧ hi ∈ p := by
  induction h with
  | nil => cases hm
  | run _ _ ih =>
    obtain ⟨hlo, hhi⟩ := ih (by simpa using hm); simp [hlo, hhi]
  | one _ ih =>
    obtain ⟨hlo, hhi⟩ := ih (by simpa using hm); simp [hlo, hhi]
  | bracket hb _ ih =>
    obtain ⟨hbody, hrest⟩ := hb.body_subset
    rcases List.mem_cons.1 hm with hm | hm
    · cases hm
      obtain ⟨hlo, hhi⟩ := mem_of_range_mem hi'
      exact ⟨List.mem_cons_of_mem _ (hbody hlo), List.mem_cons_of_mem _ (hbody hhi)⟩
    · obtain ⟨hlo, hhi⟩ := ih hm
      exact ⟨List.mem_cons_of_mem _ (hrest hlo), List.mem_cons_of_mem _ (hrest hhi)⟩
  | unclosed _ _ ih =>
    obtain ⟨hlo, hhi⟩ := ih (by simpa using hm); simp [hlo, hhi]
  | literal _ _ ih =>
    obtain ⟨hlo, hhi⟩ := ih (by simpa using hm); simp [hlo, hhi]

/-- The ends of a range are characters of the pattern. -/
theorem mem_of_hasRange {pattern : List Char} {lo hi : Char} (h : HasRange pattern lo hi) :
    lo ∈ pattern ∧ hi ∈ pattern := by
  obtain ⟨ps, negated, items, hps, hm, hi'⟩ := h
  exact mem_of_reads hps hm hi'

/-! ## The ranges that the reader keeps -/

/-- Whether the reader keeps an item. -/
def Item.isKept : Item → Bool
  | .one _ => true
  | .range lo hi => Text.unitRank lo ≤ Text.unitRank hi

/-- A piece with the items that the reader keeps. -/
def Piece.kept : Piece → Piece
  | .oneOf negated items => .oneOf negated (items.filter Item.isKept)
  | p => p

theorem readItems_eq (body : List Char) : readItems body = (writtenItems body).filter Item.isKept := by
  fun_induction readItems body with
  | case1 lo hi r hle ih => simp [writtenItems, Item.isKept, hle, ih]
  | case2 lo hi r hle ih => simp [writtenItems, Item.isKept, hle, ih]
  | case3 c r hr ih =>
    rw [writtenItems, List.filter_cons_of_pos (by rfl), ih]
    exact hr
  | case4 => rfl

/-! ## Closed brackets -/

theorem untilClose_append {mid : List Char} (h : ']' ∉ mid) (rest : List Char) :
    untilClose (mid ++ ']' :: rest) = some mid.length := by
  induction mid with
  | nil => simp [untilClose]
  | cons c mid ih =>
    rw [List.mem_cons, not_or] at h
    simp [untilClose, Ne.symm h.1, ih h.2]

theorem eq_append_of_untilClose {s : List Char} {n : Nat} (h : untilClose s = some n) :
    ∃ mid rest, s = mid ++ ']' :: rest ∧ ']' ∉ mid := by
  induction s generalizing n with
  | nil => cases h
  | cons c s ih =>
    rw [untilClose] at h
    split at h
    · rename_i hc
      exact ⟨[], s, by simp [hc], by simp⟩
    · rename_i hc
      obtain ⟨m, hm, -⟩ := Option.map_eq_some_iff.1 h
      obtain ⟨mid, rest, rfl, hmid⟩ := ih hm
      exact ⟨c :: mid, rest, rfl, by simp [Ne.symm hc, hmid]⟩

/-- Whatever character comes first, the body goes on to the first `]` behind it. -/
theorem bodyLength?_cons {first : Char} (h : first ≠ '!') (s : List Char) :
    bodyLength? (first :: s) = (untilClose s).map (· + 1) := by
  by_cases hc : first = ']'
  · subst hc; rfl
  · rw [bodyLength?]
    · simp [untilClose, hc]
    · rintro _ e; exact h (List.cons.inj e).1
    · rintro _ e; exact h (List.cons.inj e).1
    · rintro _ e; exact hc (List.cons.inj e).1

theorem bodyLength?_bang (first : Char) (s : List Char) :
    bodyLength? ('!' :: first :: s) = (untilClose s).map (· + 2) := by
  by_cases hc : first = ']'
  · subst hc; rfl
  · rw [bodyLength?]
    · simp [untilClose, hc, Function.comp_def]
    · rintro _ e; exact hc (List.cons.inj e).1

/-- A closed bracket is read whole, and the reading goes on behind it. -/
theorem bodyLength?_of_bracket {p body rest : List Char} {negated : Bool}
    (h : Bracket p negated body rest) : ∃ n, bodyLength? p = some n ∧
      readBody (p.take n) = .oneOf negated (readItems body) ∧ p.drop (n + 1) = rest := by
  cases h with
  | @plain first mid rest hf hm =>
    refine ⟨mid.length + 1, ?_, ?_, by simp⟩
    · rw [List.cons_append, bodyLength?_cons hf, untilClose_append hm]; rfl
    · rw [List.cons_append, List.take_succ_cons, List.take_left' rfl, readBody]
      rintro _ e; exact hf (List.cons.inj e).1
  | @negated first mid rest hm =>
    refine ⟨mid.length + 2, ?_, ?_, by simp⟩
    · rw [List.cons_append, List.cons_append, bodyLength?_bang, untilClose_append hm]; rfl
    · rw [List.cons_append, List.cons_append, List.take_succ_cons, List.take_succ_cons,
        List.take_left' rfl, readBody]

theorem exists_bracket_of_bodyLength? {p : List Char} {n : Nat} (h : bodyLength? p = some n) :
    ∃ negated body rest, Bracket p negated body rest := by
  match p with
  | [] => cases h
  | first :: s =>
    by_cases hf : first = '!'
    · subst hf
      match s with
      | [] => cases h
      | first :: s =>
        rw [bodyLength?_bang] at h
        obtain ⟨m, hm, -⟩ := Option.map_eq_some_iff.1 h
        obtain ⟨mid, rest, rfl, hmid⟩ := eq_append_of_untilClose hm
        exact ⟨true, first :: mid, rest, .negated hmid⟩
    · rw [bodyLength?_cons hf] at h
      obtain ⟨m, hm, -⟩ := Option.map_eq_some_iff.1 h
      obtain ⟨mid, rest, rfl, hmid⟩ := eq_append_of_untilClose hm
      exact ⟨false, first :: mid, rest, .plain hf hmid⟩

theorem bodyLength?_eq_none_iff (p : List Char) :
    bodyLength? p = none ↔ ∀ negated body rest, ¬Bracket p negated body rest := by
  constructor
  · intro h negated body rest hb
    obtain ⟨n, hn, -⟩ := bodyLength?_of_bracket hb
    rw [h] at hn; cases hn
  · intro h
    cases hn : bodyLength? p with
    | none => rfl
    | some n =>
      obtain ⟨negated, body, rest, hb⟩ := exists_bracket_of_bodyLength? hn
      exact absurd hb (h negated body rest)

/-! ## The reader -/

theorem readPieces_run {p : List Char} (h : p.head? ≠ some '*') (n : Nat) :
    readPieces 0 (List.replicate (n + 1) '*' ++ p) = .anyRun :: readPieces 0 p := by
  induction n with
  | zero => simp [readPieces, h]
  | succ n ih =>
    have hnext : (List.replicate (n + 1) '*' ++ p).head? = some '*' := by simp [List.replicate_succ]
    rw [List.replicate_succ, List.cons_append, readPieces, if_pos rfl, if_pos hnext, ih]

/-- The reader finds what a pattern says, less the ranges that it leaves out. -/
theorem readPieces_eq_of_reads {p : List Char} {ps : List Piece} (h : Reads p ps) :
    readPieces 0 p = ps.map Piece.kept := by
  -- the cases of the reader are those of the relation; only brackets lose something
  induction h with
  | nil => rfl
  | run hp _ ih => rw [readPieces_run hp, ih]; rfl
  | one _ ih => simp [readPieces, ih, Piece.kept]
  | bracket hb _ ih =>
    obtain ⟨n, hn, hbody, hrest⟩ := bodyLength?_of_bracket hb
    rw [readPieces_bracket hn, hbody, hrest, ih, readItems_eq]; rfl
  | unclosed hb _ ih =>
    simp [readPieces, (bodyLength?_eq_none_iff _).2 hb, ih, Piece.kept]
  | literal hc _ ih =>
    simp only [List.mem_cons, List.not_mem_nil, or_false, not_or] at hc
    simp [readPieces, hc, ih, Piece.kept]

theorem length_rest_lt {p body rest : List Char} {negated : Bool} (h : Bracket p negated body rest) :
    rest.length < p.length := by
  cases h <;> simp <;> omega

/-- A pattern without its leading run of `*`. -/
theorem exists_run (p : List Char) : ∃ n q, p = List.replicate n '*' ++ q ∧ q.head? ≠ some '*' := by
  induction p with
  | nil => exact ⟨0, [], rfl, by simp⟩
  | cons c p ih =>
    by_cases hc : c = '*'
    · obtain ⟨n, q, rfl, hq⟩ := ih
      exact ⟨n + 1, q, by rw [hc, List.replicate_succ, List.cons_append], hq⟩
    · exact ⟨0, c :: p, rfl, by simpa using hc⟩

theorem exists_reads (p : List Char) : ∃ ps, Reads p ps := by
  -- a bracket and a run take several characters at once, so the induction is on the length
  induction hlen : p.length using Nat.strongRecOn generalizing p with
  | ind n ih =>
    subst hlen
    match p with
    | [] => exact ⟨[], .nil⟩
    | c :: r =>
      obtain ⟨ps, hps⟩ := ih r.length (by simp) r rfl
      by_cases hstar : c = '*'
      · subst hstar
        obtain ⟨n, q, rfl, hq⟩ := exists_run r
        have hlen : q.length < ('*' :: (List.replicate n '*' ++ q)).length := by
          rw [List.length_cons, List.length_append]; omega
        obtain ⟨qs, hqs⟩ := ih q.length hlen q rfl
        exact ⟨.anyRun :: qs, .run hq hqs⟩
      by_cases hone : c = '?'
      · subst hone; exact ⟨.anyOne :: ps, .one hps⟩
      by_cases hopen : c = '['
      · subst hopen
        by_cases hb : ∃ negated body rest, Bracket r negated body rest
        · obtain ⟨negated, body, rest, hb⟩ := hb
          obtain ⟨qs, hqs⟩ := ih rest.length (Nat.lt_succ_of_lt (length_rest_lt hb)) rest rfl
          exact ⟨_, .bracket hb hqs⟩
        · push Not at hb
          exact ⟨_, .unclosed hb hps⟩
      · exact ⟨_, .literal (by simp [hstar, hone, hopen]) hps⟩

end LintEngine.Glob
