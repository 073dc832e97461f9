/-
The text of a glob's expression, read back. For any list of pieces the text is understood: it
describes the anchored sequence of the pieces (`read_source`), unless a range of some set has its
ends in the wrong order by code point, which is then its one defect. The expression finds exactly
the names of the pieces' language (`finds_expression_iff`). Every escape of the text is needed here:
one character left bare would be another token, or none.
-/
import LintEngine.Expression.Read
import LintEngine.Glob.Source
import LintEngine.Proofs.Glob.Language

namespace LintEngine.Glob

open Expression (Symbol Token Term Defect followedBy)

/-! ## Symbols of the text -/

/-- The symbol of a character that is escaped when it is one of `special`. -/
def written (special : List Char) (c : Char) : Symbol :=
  if c ∈ special then .escaped c else .bare c

theorem symbols_escapeIn {special : List Char} (h : '\\' ∈ special) (c : Char) :
    Expression.symbols (escapeIn special c) = .ok [written special c] := by
  unfold escapeIn written
  split
  · rfl
  · rename_i hc
    have hne : c ≠ '\\' := by rintro rfl; exact hc h
    rw [Expression.symbols_bare hne]; rfl

theorem symbols_flatMap {α : Type} {f : α → List Char} {g : α → List Symbol}
    (h : ∀ a, Expression.symbols (f a) = .ok (g a)) (l : List α) :
    Expression.symbols (l.flatMap f) = .ok (l.flatMap g) := by
  induction l with
  | nil => rfl
  | cons a l ih =>
    rw [List.flatMap_cons, Expression.symbols_append (h a), ih, List.flatMap_cons]; rfl

/-- The symbols of an item. -/
def Item.symbols : Item → List Symbol
  | .one c => [written setSpecial c]
  | .range lo hi => [written setSpecial lo, .bare '-', written setSpecial hi]

theorem symbols_item (i : Item) : Expression.symbols i.source = .ok i.symbols := by
  cases i with
  | one c => exact symbols_escapeIn (by decide) c
  | range lo hi =>
    rw [Item.source, Expression.symbols_append (symbols_escapeIn (by decide) lo),
      Expression.symbols_bare (by decide), symbols_escapeIn (by decide) hi]
    rfl

/-- The symbols for any one character. -/
def anySymbols : List Symbol := [.bare '[', .escaped 's', .escaped 'S', .bare ']']

/-- The symbols of a set with members. -/
def setSymbols (negated : Bool) (items : List Item) : List Symbol :=
  .bare '[' :: (if negated then [.bare '^'] else []) ++ items.flatMap Item.symbols ++ [.bare ']']

/-- The symbols of a piece. -/
def Piece.symbols : Piece → List Symbol
  | .literal c => [written expressionSpecial c]
  | .anyRun => anySymbols ++ [.bare '*']
  | .anyOne => anySymbols
  | .oneOf false [] => [.bare '(', .bare '?', .bare '!', .bare ')']
  | .oneOf true [] => anySymbols
  | .oneOf negated items => setSymbols negated items

theorem symbols_set (negated : Bool) (i : Item) (items : List Item) :
    Expression.symbols (Piece.oneOf negated (i :: items)).source =
      .ok (setSymbols negated (i :: items)) := by
  have hitems := symbols_flatMap symbols_item (i :: items)
  cases negated with
  | false =>
    rw [Piece.source, List.cons_append, Expression.symbols_bare (by decide),
      Expression.symbols_append hitems]
    · rfl
    · exact List.cons_ne_nil i items
  | true =>
    rw [Piece.source, List.cons_append, List.cons_append, Expression.symbols_bare (by decide),
      Expression.symbols_bare (by decide), Expression.symbols_append hitems]
    · rfl
    · exact List.cons_ne_nil i items

theorem symbols_piece (p : Piece) : Expression.symbols p.source = .ok p.symbols := by
  cases p with
  | literal c => exact symbols_escapeIn (by decide) c
  | anyRun => rfl
  | anyOne => rfl
  | oneOf negated items =>
    cases items with
    | nil => cases negated <;> rfl
    | cons i items => cases negated <;> exact symbols_set _ i items

/-! ## Sets -/

theorem written_ne_bare {special : List Char} {c : Char} (h : c ∈ special) (x : Char) :
    written special x ≠ .bare c := by
  unfold written
  split
  · simp
  · rename_i hx
    rintro ⟨⟩; exact hx h

/-- The member of a set that an item is. -/
def Item.member : Item → Expression.Member
  | .one c => .char c
  | .range lo hi => .range lo hi

theorem memberOf_written (c : Char) : Expression.memberOf (written setSpecial c) = .ok (.char c) := by
  unfold written
  split
  · rename_i hc
    simp only [setSpecial, List.mem_cons, List.not_mem_nil, or_false] at hc
    rcases hc with rfl | rfl | rfl | rfl | rfl <;> rfl
  · rfl

/-- No item begins with a bare character that has a meaning in sets. -/
theorem itemSymbols_ne_bare {c : Char} (h : c ∈ setSpecial) (items : List Item) (r : List Symbol) :
    items.flatMap Item.symbols ≠ .bare c :: r := by
  cases items with
  | nil => simp
  | cons i items =>
    intro e
    cases i <;> exact written_ne_bare h _ (List.cons.inj e).1

theorem readMembers_items (items : List Item) :
    Expression.readMembers (items.flatMap Item.symbols) =
      if items.all Item.isOrdered then .ok (items.map Item.member) else .error .disordered := by
  induction items with
  | nil => rfl
  | cons i items ih =>
    cases i with
    | one c =>
      have hone : Expression.readMembers ((Item.one c :: items).flatMap Item.symbols) =
          followedBy [.char c] (Expression.readMembers (items.flatMap Item.symbols)) := by
        rw [List.flatMap_cons, Item.symbols, List.singleton_append, Expression.readMembers,
          memberOf_written]
        rintro hi r e
        exact itemSymbols_ne_bare (by decide) items _ e
      rw [hone, ih]
      simp only [List.all_cons, Item.isOrdered, Bool.true_and]
      split <;> rfl
    | range lo hi =>
      rw [List.flatMap_cons, Item.symbols, List.cons_append, List.cons_append, List.singleton_append,
        Expression.readMembers, memberOf_written, memberOf_written, ih]
      simp only [Expression.rangeOf, List.all_cons, Item.isOrdered, Bool.and_eq_true, decide_eq_true_eq]
      by_cases hle : lo.toNat ≤ hi.toNat
      · simp only [hle, if_true, true_and]
        split <;> rfl
      · simp only [hle, if_false, false_and]

/-! ## Tokens -/

/-- The set that any character is in. -/
def anySet : Expression := .set false [.blank false, .blank true]

/-- The tokens of a piece. -/
def Piece.tokens : Piece → List Token
  | .literal c => [.atom (.char c)]
  | .anyRun => [.atom anySet, .star]
  | .anyOne => [.atom anySet]
  | .oneOf false [] => [.opening .notAhead, .closing]
  | .oneOf true [] => [.atom anySet]
  | .oneOf negated items => [.atom (.set negated (items.map Item.member))]

/-- What is escaped outside a set is what may be escaped there, and nothing is left bare that must not
be. -/
theorem mem_expressionSpecial_iff (c : Char) :
    c ∈ expressionSpecial ↔ c ∈ Expression.syntaxCharacters ∨ c = '/' := by
  have hperm : expressionSpecial.Perm (Expression.syntaxCharacters ++ ['/']) := by decide
  rw [hperm.mem_iff, List.mem_append, List.mem_singleton]

theorem tokenOf_written (c : Char) :
    Expression.tokenOf (written expressionSpecial c) = .ok (.atom (.char c)) := by
  unfold written
  split
  · rename_i hc
    rw [Expression.tokenOf, if_pos ((mem_expressionSpecial_iff c).1 hc)]
  · rename_i hc
    have hs : c ∉ Expression.syntaxCharacters :=
      fun h => hc ((mem_expressionSpecial_iff c).2 (.inl h))
    rw [Expression.tokenOf, if_neg hs]
    -- the four bare characters with a token of their own are among the escaped ones
    all_goals rintro rfl; exact hs (by decide)

/-- Outside a set a symbol that opens neither a set nor a group is a token by itself. -/
theorem tokens_symbol {s : Symbol} {t : Token} (h : Expression.tokenOf s = .ok t) (r : List Symbol) :
    Expression.tokens none (s :: r) = followedBy [t] (Expression.tokens none r) := by
  rw [Expression.tokens, h]
  · rintro rfl; cases h
  · rintro _ rfl; cases h
  · rintro _ rfl; cases h

/-- What is read of an open set goes up to the first bare `]`. -/
theorem tokens_open {body : List Symbol} (h : .bare ']' ∉ body) (front r : List Symbol) :
    Expression.tokens (some front) (body ++ .bare ']' :: r) =
      match Expression.readSet (front ++ body) with
      | .ok e => followedBy [.atom e] (Expression.tokens none r)
      | .error d => .error d := by
  -- the induction is on what is still to be read of the set; `front` collects what was read
  induction body generalizing front with
  | nil => rw [List.append_nil]; rfl
  | cons s body ih =>
    rw [List.mem_cons, not_or] at h
    rw [List.cons_append, Expression.tokens, if_neg (Ne.symm h.1), ih h.2]
    simp

theorem tokens_anySymbols (r : List Symbol) :
    Expression.tokens none (anySymbols ++ r) = followedBy [.atom anySet] (Expression.tokens none r) := by
  rfl

theorem close_not_mem_items (items : List Item) : .bare ']' ∉ items.flatMap Item.symbols := by
  have hne (c : Char) : ¬Symbol.bare ']' = written setSpecial c :=
    fun e => written_ne_bare (by decide) c e.symm
  rw [List.mem_flatMap]
  rintro ⟨i, -, hi⟩
  cases i <;> simp [Item.symbols, hne] at hi

/-- The body of a set: its members, behind a `^` if it is negated. -/
def setBody (negated : Bool) (items : List Item) : List Symbol :=
  (if negated then [.bare '^'] else []) ++ items.flatMap Item.symbols

theorem readSet_setBody (negated : Bool) (items : List Item) :
    Expression.readSet (setBody negated items) =
      (Expression.readMembers (items.flatMap Item.symbols)).map (.set negated) := by
  cases negated with
  | true => rfl
  | false =>
    rw [setBody, if_neg (by simp), List.nil_append, Expression.readSet]
    exact itemSymbols_ne_bare (by decide) items

/-- A set is one token, or the text has its defect. -/
theorem tokens_setSymbols (negated : Bool) (items : List Item) (r : List Symbol) :
    Expression.tokens none (setSymbols negated items ++ r) =
      if items.all Item.isOrdered then
        followedBy [.atom (.set negated (items.map Item.member))] (Expression.tokens none r)
      else .error .disordered := by
  -- every `]` among the members is escaped, so the set ends where it was meant to
  have hclose : .bare ']' ∉ setBody negated items := by
    rw [setBody, List.mem_append, not_or]
    exact ⟨by split <;> simp, close_not_mem_items items⟩
  have happ : setSymbols negated items ++ r =
      .bare '[' :: (setBody negated items ++ .bare ']' :: r) := by
    simp [setSymbols, setBody]
  rw [happ, Expression.tokens, tokens_open hclose, List.nil_append, readSet_setBody,
    readMembers_items]
  by_cases hord : items.all Item.isOrdered = true
  · rw [if_pos hord, if_pos hord]; rfl
  · rw [if_neg hord, if_neg hord]; rfl

/-- An empty group that must not match. -/
theorem tokens_never (r : List Symbol) :
    Expression.tokens none (.bare '(' :: .bare '?' :: .bare '!' :: .bare ')' :: r) =
      followedBy [.opening .notAhead, .closing] (Expression.tokens none r) := by
  rw [Expression.tokens, tokens_symbol rfl, Expression.followedBy_followedBy]; rfl

theorem tokens_piece (p : Piece) (r : List Symbol) :
    Expression.tokens none (p.symbols ++ r) =
      if p.isOrdered then followedBy p.tokens (Expression.tokens none r) else .error .disordered := by
  cases p with
  | literal c => exact tokens_symbol (tokenOf_written c) r
  | anyRun =>
    rw [Piece.symbols, List.append_assoc, tokens_anySymbols, List.singleton_append, tokens_symbol rfl,
      Expression.followedBy_followedBy]
    rfl
  | anyOne => exact tokens_anySymbols r
  | oneOf negated items =>
    cases items with
    | nil =>
      cases negated with
      | false => exact tokens_never r
      | true => exact tokens_anySymbols r
    | cons i items => cases negated <;> exact tokens_setSymbols _ (i :: items) r

theorem tokens_pieces (ps : List Piece) (r : List Symbol) :
    Expression.tokens none (ps.flatMap Piece.symbols ++ r) =
      if ps.all Piece.isOrdered then followedBy (ps.flatMap Piece.tokens) (Expression.tokens none r)
      else .error .disordered := by
  induction ps with
  | nil => simp
  | cons p ps ih =>
    rw [List.flatMap_cons, List.append_assoc, tokens_piece, ih, List.all_cons, List.flatMap_cons]
    by_cases hp : p.isOrdered = true
    · simp only [hp, if_true, Bool.true_and]
      split
      · rw [Expression.followedBy_followedBy]
      · rfl
    · simp [hp]

/-! ## Groups -/

/-- The term of a sequence that a piece is. -/
def Piece.term : Piece → Term
  | .literal c => ⟨.char c, true⟩
  | .anyRun => ⟨.star anySet, false⟩
  | .anyOne => ⟨anySet, true⟩
  | .oneOf false [] => ⟨.notAhead .empty, false⟩
  | .oneOf true [] => ⟨anySet, true⟩
  | .oneOf negated items => ⟨.set negated (items.map Item.member), true⟩

theorem build_piece (outer : List (Expression.Group × List Term)) (terms : List Term) (p : Piece)
    (r : List Token) :
    Expression.build outer terms (p.tokens ++ r) = Expression.build outer (p.term :: terms) r := by
  cases p with
  | literal c => rw [Piece.tokens, List.singleton_append, Expression.build]; rfl
  | anyRun =>
    rw [Piece.tokens, List.cons_append, List.singleton_append, Expression.build, Expression.build]; rfl
  | anyOne => rw [Piece.tokens, List.singleton_append, Expression.build]; rfl
  | oneOf negated items =>
    cases negated <;> cases items <;>
      simp only [Piece.tokens, List.cons_append, List.nil_append, Expression.build] <;> rfl

theorem build_pieces (outer : List (Expression.Group × List Term)) (ps : List Piece)
    (terms : List Term) (r : List Token) :
    Expression.build outer terms (ps.flatMap Piece.tokens ++ r) =
      Expression.build outer ((ps.map Piece.term).reverse ++ terms) r := by
  induction ps generalizing terms with
  | nil => rfl
  | cons p ps ih =>
    rw [List.flatMap_cons, List.append_assoc, build_piece, ih, List.map_cons, List.reverse_cons,
      List.append_assoc, List.singleton_append]

/-- The pieces one after the other. -/
def sequenceOf (ps : List Piece) : Expression :=
  ps.foldr (fun p e => .seq p.term.expression e) .empty

/-- The expression of a glob: its pieces, from the start of a text to its end. -/
def expression (ps : List Piece) : Expression :=
  .seq .start (.seq (sequenceOf ps) (.seq .stop .empty))

theorem sequence_reverse (ps : List Piece) :
    Expression.sequence (ps.map Piece.term).reverse = sequenceOf ps := by
  rw [Expression.sequence, List.foldl_reverse, List.foldr_map]; rfl

/-! ## Reading it back -/

/-- The symbols of a glob's text. -/
def sourceSymbols (ps : List Piece) : List Symbol :=
  .bare '^' :: .bare '(' :: .bare '?' :: .bare ':' :: (ps.flatMap Piece.symbols ++ [.bare ')', .bare '$'])

theorem toList_source (g : Glob) :
    g.source.toList = "^(?:".toList ++ (g.pieces.flatMap Piece.source ++ ")$".toList) := by
  rw [← List.append_assoc]; exact String.toList_ofList

theorem symbols_source (g : Glob) :
    Expression.symbols g.source.toList = .ok (sourceSymbols g.pieces) := by
  have hfront : Expression.symbols "^(?:".toList = .ok [.bare '^', .bare '(', .bare '?', .bare ':'] := rfl
  have hback : Expression.symbols ")$".toList = .ok [.bare ')', .bare '$'] := rfl
  rw [toList_source, Expression.symbols_append hfront,
    Expression.symbols_append (symbols_flatMap symbols_piece g.pieces), hback]
  rfl

theorem tokens_plainGroup (r : List Symbol) :
    Expression.tokens none (.bare '(' :: .bare '?' :: .bare ':' :: r) =
      followedBy [.opening .plain] (Expression.tokens none r) := rfl

theorem tokens_source (ps : List Piece) :
    Expression.tokens none (sourceSymbols ps) =
      if ps.all Piece.isOrdered then
        .ok (.assertion .start :: .opening .plain :: (ps.flatMap Piece.tokens ++ [.closing, .assertion .stop]))
      else .error .disordered := by
  rw [sourceSymbols, tokens_symbol rfl, tokens_plainGroup, tokens_pieces]
  split <;> rfl

theorem build_source (ps : List Piece) :
    Expression.build [] []
        (.assertion .start :: .opening .plain :: (ps.flatMap Piece.tokens ++ [.closing, .assertion .stop])) =
      .ok (expression ps) := by
  rw [Expression.build, Expression.build, build_pieces, List.append_nil, Expression.build,
    Expression.build, Expression.build, sequence_reverse]
  rfl

/-- The text of a glob describes the glob's expression, or has a range in the wrong order. -/
theorem read_source (g : Glob) :
    Expression.read g.source.toList =
      if g.isValid then .ok (expression g.pieces) else .error .disordered := by
  have htokens := tokens_source g.pieces
  unfold isValid
  by_cases h : g.pieces.all Piece.isOrdered = true
  · rw [if_pos h] at htokens ⊢
    simp only [Expression.read, symbols_source, htokens]
    exact build_source g.pieces
  · rw [if_neg h] at htokens ⊢
    simp only [Expression.read, symbols_source, htokens]

/-! ## What it finds -/

theorem member_contains (i : Item) (c : Char) : i.member.contains c = i.contains c := by
  cases i <;> rfl

theorem any_member_contains (items : List Item) (c : Char) :
    (items.map Item.member).any (·.contains c) = items.any (·.contains c) := by
  rw [List.any_map]; congr 1; funext i; exact member_contains i c

theorem anySet_full (c : Char) :
    ([.blank false, .blank true] : List Expression.Member).any (·.contains c) = true := by
  simp [Expression.Member.contains]

theorem matches_anySet (text s t : List Char) :
    anySet.Matches text s t ↔ ∃ c, s = c :: t :=
  Expression.matches_set_of_full anySet_full text s t

/-- The term of a piece for one character takes a character that the piece accepts. -/
theorem matches_term {p : Piece} (hp : p ≠ .anyRun) (text s t : List Char) :
    p.term.expression.Matches text s t ↔ ∃ c, s = c :: t ∧ p.acceptsOne c = true := by
  cases p with
  | literal c =>
    simp only [Piece.term, Expression.Matches, Piece.acceptsOne, beq_iff_eq]
    constructor
    · intro h; exact ⟨c, h, rfl⟩
    · rintro ⟨_, h, rfl⟩; exact h
  | anyRun => exact absurd rfl hp
  | anyOne => simp [Piece.term, matches_anySet, Piece.acceptsOne]
  | oneOf negated items =>
    cases items with
    | nil =>
      cases negated with
      | false => simp [Piece.term, Expression.Matches, Piece.acceptsOne]
      | true => simp [Piece.term, matches_anySet, Piece.acceptsOne]
    | cons i items =>
      cases negated <;>
        simp only [Piece.term, Expression.Matches, any_member_contains, Piece.acceptsOne, bne_iff_ne]

/-- The sequence of some pieces leads over the texts of their language. -/
theorem matches_sequenceOf (text : List Char) (ps : List Piece) (s t : List Char) :
    (sequenceOf ps).Matches text s t ↔ ∃ w, s = w ++ t ∧ Language ps w := by
  induction ps generalizing s with
  | nil => simp [sequenceOf, Expression.Matches, language_nil_iff]
  | cons p ps ih =>
    have hseq : (sequenceOf (p :: ps)).Matches text s t ↔
        ∃ u, p.term.expression.Matches text s u ∧ (sequenceOf ps).Matches text u t := Iff.rfl
    rw [hseq]
    -- a run leads to any later place, every other piece over one character
    by_cases hp : p = .anyRun
    · subst hp
      have hrun (u : List Char) : (Piece.term .anyRun).expression.Matches text s u ↔ u <:+ s :=
        Expression.matches_star_set anySet_full text s u
      simp only [hrun, ih, language_anyRun_iff]
      constructor
      · rintro ⟨_, ⟨front, rfl⟩, w, rfl, h⟩
        exact ⟨front ++ w, by rw [List.append_assoc], w, List.suffix_append front w, h⟩
      · rintro ⟨_, rfl, w, ⟨front, rfl⟩, h⟩
        exact ⟨w ++ t, ⟨front, by rw [List.append_assoc]⟩, w, rfl, h⟩
    · simp only [matches_term hp, ih, language_cons_iff hp]
      constructor
      · rintro ⟨_, ⟨c, rfl, hc⟩, w, rfl, h⟩
        exact ⟨c :: w, rfl, c, w, rfl, hc, h⟩
      · rintro ⟨_, rfl, c, w, rfl, hc, h⟩
        exact ⟨w ++ t, ⟨c, rfl, hc⟩, w, rfl, h⟩

theorem finds_expression_iff (ps : List Piece) (text : List Char) :
    (expression ps).Finds text ↔ Language ps text := by
  simp only [Expression.Finds, expression, Expression.Matches, matches_sequenceOf]
  constructor
  · rintro ⟨s, t, -, u, ⟨rfl, rfl⟩, v, ⟨w, hw, h⟩, x, ⟨rfl, -⟩, -⟩
    rw [List.append_nil] at hw; exact hw ▸ h
  · intro h
    exact ⟨text, [], List.suffix_refl _, text, ⟨rfl, rfl⟩, [], ⟨text, by simp, h⟩, [], ⟨rfl, rfl⟩, rfl⟩

end LintEngine.Glob
