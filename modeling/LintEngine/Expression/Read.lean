/-
Reading the text of an expression, character by character as code points. First every backslash is
joined with what it escapes, then sets and the openings of groups become single tokens, then groups
are closed on a stack. A text outside the part of the syntax that `Expression` covers is not
understood, whether or not it means something elsewhere; a range whose ends are in the wrong order
by code point is a defect of its own, as it is in every expression. Main statement: symbols of a
text followed by another are those of both (`symbols_append`).
-/
import LintEngine.Expression.Basic

namespace LintEngine

namespace Expression

inductive Defect
  | disordered
  /-- The text is malformed, or outside the part of the syntax that is covered. -/
  | notUnderstood
deriving DecidableEq, Repr

/-- What was read so far, in front of what is read of the rest. -/
def followedBy {α : Type} (front : List α) : Except Defect (List α) → Except Defect (List α)
  | .ok later => .ok (front ++ later)
  | .error d => .error d

@[simp] theorem followedBy_nil {α : Type} (e : Except Defect (List α)) : followedBy [] e = e := by
  cases e <;> rfl

@[simp] theorem followedBy_followedBy {α : Type} (a b : List α) (e : Except Defect (List α)) :
    followedBy a (followedBy b e) = followedBy (a ++ b) e := by
  cases e <;> simp [followedBy]

theorem followedBy_eq_ok {α : Type} {a : List α} {e : Except Defect (List α)} {x : List α}
    (h : followedBy a e = .ok x) : ∃ b, e = .ok b ∧ x = a ++ b := by
  cases e with
  | ok b => cases h; exact ⟨b, rfl, rfl⟩
  | error d => cases h

/-! ## Symbols -/

/-- A character as it stands, or behind a backslash. -/
inductive Symbol
  | bare (c : Char)
  | escaped (c : Char)
deriving DecidableEq, Repr

/-- Joins every backslash with the character behind it. -/
def symbols : List Char → Except Defect (List Symbol)
  | [] => .ok []
  | ['\\'] => .error .notUnderstood
  | '\\' :: c :: r => followedBy [.escaped c] (symbols r)
  | c :: r => followedBy [.bare c] (symbols r)

/-- The characters that do not stand for themselves outside a set. -/
def syntaxCharacters : List Char :=
  ['^', '$', '\\', '.', '*', '+', '?', '(', ')', '[', ']', '{', '}', '|']

/-! ## Sets -/

/-- What a symbol stands for in a set. There a backslash may also escape a hyphen. -/
def memberOf : Symbol → Except Defect Member
  | .bare c => .ok (.char c)
  | .escaped 's' => .ok (.blank false)
  | .escaped 'S' => .ok (.blank true)
  | .escaped c =>
    if c ∈ syntaxCharacters ∨ c = '/' ∨ c = '-' then .ok (.char c) else .error .notUnderstood

/-- A range between two members; only characters can be its ends. -/
def rangeOf : Member → Member → Except Defect Member
  | .char lo, .char hi => if lo.toNat ≤ hi.toNat then .ok (.range lo hi) else .error .disordered
  | _, _ => .error .notUnderstood

/-- The members of a set. A bare hyphen between two symbols makes a range of them. -/
def readMembers : List Symbol → Except Defect (List Member)
  | [] => .ok []
  | lo :: .bare '-' :: hi :: r =>
    match memberOf lo, memberOf hi with
    | .ok lo, .ok hi =>
      match rangeOf lo hi with
      | .ok m => followedBy [m] (readMembers r)
      | .error d => .error d
    | _, _ => .error .notUnderstood
  | s :: r =>
    match memberOf s with
    | .ok m => followedBy [m] (readMembers r)
    | .error d => .error d

def readSet : List Symbol → Except Defect Expression
  | .bare '^' :: r => (readMembers r).map (.set true)
  | r => (readMembers r).map (.set false)

/-! ## Tokens -/

inductive Group
  | plain
  | notAhead
deriving DecidableEq, Repr

inductive Token
  | opening (g : Group)
  | closing
  /-- Something that can be repeated. -/
  | atom (e : Expression)
  | star
  /-- Something that cannot. -/
  | assertion (e : Expression)
deriving Repr

def tokenOf : Symbol → Except Defect Token
  | .bare '^' => .ok (.assertion .start)
  | .bare '$' => .ok (.assertion .stop)
  | .bare '*' => .ok .star
  | .bare ')' => .ok .closing
  | .bare c => if c ∈ syntaxCharacters then .error .notUnderstood else .ok (.atom (.char c))
  | .escaped c =>
    if c ∈ syntaxCharacters ∨ c = '/' then .ok (.atom (.char c)) else .error .notUnderstood

/-- The tokens of a text; `body` is what was read of a set that is still open. -/
def tokens : (body : Option (List Symbol)) → List Symbol → Except Defect (List Token)
  | none, [] => .ok []
  | some _, [] => .error .notUnderstood
  | some body, s :: r =>
    if s = .bare ']' then
      match readSet body with
      | .ok e => followedBy [.atom e] (tokens none r)
      | .error d => .error d
    else tokens (some (body ++ [s])) r
  | none, .bare '[' :: r => tokens (some []) r
  | none, .bare '(' :: .bare '?' :: .bare ':' :: r => followedBy [.opening .plain] (tokens none r)
  | none, .bare '(' :: .bare '?' :: .bare '!' :: r => followedBy [.opening .notAhead] (tokens none r)
  | none, s :: r =>
    match tokenOf s with
    | .ok t => followedBy [t] (tokens none r)
    | .error d => .error d

/-! ## Groups -/

/-- A part of a sequence, and whether it may be repeated. -/
structure Term where
  expression : Expression
  repeatable : Bool
deriving Repr

/-- The sequence of some terms, the last one first. -/
def sequence (terms : List Term) : Expression :=
  terms.foldl (fun e t => .seq t.expression e) .empty

def Group.close (content : Expression) : Group → Term
  | .plain => ⟨content, true⟩
  | .notAhead => ⟨.notAhead content, false⟩

/-- Builds an expression from what was read of the open groups, the innermost first, and of the
content at hand, the last term first. -/
def build : List (Group × List Term) → List Term → List Token → Except Defect Expression
  | [], terms, [] => .ok (sequence terms)
  | _ :: _, _, [] => .error .notUnderstood
  | outer, terms, .opening g :: r => build ((g, terms) :: outer) [] r
  | (g, before) :: outer, terms, .closing :: r => build outer (g.close (sequence terms) :: before) r
  | [], _, .closing :: _ => .error .notUnderstood
  | outer, terms, .atom e :: r => build outer (⟨e, true⟩ :: terms) r
  | outer, terms, .assertion e :: r => build outer (⟨e, false⟩ :: terms) r
  | outer, ⟨e, true⟩ :: before, .star :: r => build outer (⟨.star e, false⟩ :: before) r
  | _, _, .star :: _ => .error .notUnderstood

def read (text : List Char) : Except Defect Expression :=
  match symbols text with
  | .error d => .error d
  | .ok s =>
    match tokens none s with
    | .error d => .error d
    | .ok t => build [] [] t

/-! ## Texts one after the other -/

theorem symbols_bare {c : Char} (h : c ≠ '\\') (r : List Char) :
    symbols (c :: r) = followedBy [.bare c] (symbols r) := by
  rw [symbols]
  · rintro rfl; exact absurd rfl h
  · rintro _ _ rfl; exact absurd rfl h

theorem symbols_append {a : List Char} {x : List Symbol} (h : symbols a = .ok x) (b : List Char) :
    symbols (a ++ b) = followedBy x (symbols b) := by
  fun_induction symbols a generalizing x with
  | case1 => cases h; simp
  | case2 => cases h
  | case3 c r ih =>
    obtain ⟨y, hy, rfl⟩ := followedBy_eq_ok h
    simp [symbols, ih hy]
  | case4 c r hc hr ih =>
    obtain ⟨y, hy, rfl⟩ := followedBy_eq_ok h
    have hne : c ≠ '\\' := by
      rintro rfl
      cases r with
      | nil => exact hc rfl rfl
      | cons d r => exact hr d r rfl rfl
    rw [List.cons_append, symbols_bare hne, ih hy, followedBy_followedBy]

end Expression

end LintEngine
