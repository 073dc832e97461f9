/-
The tokens that a document's text is cut into. Nothing of the text is lost: blanks, comments and line
ends are tokens too, and what fits nowhere is a stray one. Except where a scalar is due, a token's
text tells its kind.
-/
namespace LintEngine.Yaml

/-! ## Characters -/

/-- Whether a character is a blank within a line. -/
def isBlankChar (c : Char) : Bool := c == ' ' || c == '\t'

/-- Whether a character parts words or lines. -/
def isBreakChar (c : Char) : Bool := isBlankChar c || c == '\n' || c == '\r'

/-- Whether a text is at a break: it is empty, or starts with a character that parts words. -/
def atBreak (text : List Char) : Bool := text.head?.all isBreakChar

/-- The characters that have a meaning between brackets. -/
def isFlowMark (c : Char) : Bool :=
  c == ',' || c == '[' || c == ']' || c == '\x7b' || c == '\x7d'

/-- Whether a character ends the name of an anchor or alias. -/
def endsName (c : Char) : Bool := isBreakChar c || isFlowMark c

/-- The mark of the byte order, which some texts start with. -/
def byteOrderMark : Char := '\ufeff'

/-! ## Kinds -/

inductive Kind
  | byteOrderMark
  /-- Where a document starts without a mark of its own; no text. -/
  | bareStart
  /-- Where brackets break off without being closed; no text. -/
  | flowBreak
  | documentStart | documentEnd | directive
  | lineEnd | blank | comment
  /-- The marks `-` of an item, `?` of a key and `:` of a value. -/
  | itemMark | keyMark | valueMark
  | mapStart | mapEnd | seqStart | seqEnd | comma
  | alias | anchor | tag
  | plain | singleQuoted | doubleQuoted | blockHeader
  /-- No token at all. -/
  | stray
deriving DecidableEq, Repr, Inhabited

/-- The kinds of the tokens whose text is always the same. -/
def fixedKinds : List (List Char × Kind) :=
  [(['\ufeff'], .byteOrderMark), (['-', '-', '-'], .documentStart), (['.', '.', '.'], .documentEnd),
   (['\n'], .lineEnd), (['\r', '\n'], .lineEnd), (['-'], .itemMark), (['?'], .keyMark),
   ([':'], .valueMark), (['\x7b'], .mapStart), (['\x7d'], .mapEnd), (['['], .seqStart),
   ([']'], .seqEnd), ([','], .comma)]

/-- The kinds of the other tokens, by their first character. -/
def leadingKinds : List (Char × Kind) :=
  [(' ', .blank), ('\t', .blank), ('#', .comment), ('%', .directive), ('*', .alias), ('&', .anchor),
   ('!', .tag), ('\'', .singleQuoted), ('"', .doubleQuoted), ('|', .blockHeader), ('>', .blockHeader)]

/-- The kind that a token's text tells. -/
def Kind.ofText (text : List Char) : Kind :=
  ((fixedKinds.lookup text).or (text.head?.bind (List.lookup · leadingKinds))).getD .stray

/-- Whether tokens of a kind are only space between others. -/
def Kind.isSpace (k : Kind) : Bool := k == .blank || k == .comment || k == .lineEnd

/-- Whether tokens of a kind are nodes of their own. -/
def Kind.isLeaf (k : Kind) : Bool :=
  k == .alias || k == .plain || k == .singleQuoted || k == .doubleQuoted

/-! ## Tokens -/

/-- A piece of a text. -/
structure Lexeme where
  kind : Kind
  text : List Char
deriving Repr, Inhabited

/-- A token at its place: how many code units come before it, and how many of the characters before
it in its line indent it. -/
structure Token extends Lexeme where
  offset : Nat
  indent : Nat
deriving Repr, Inhabited

def Token.is (t : Token) (k : Kind) : Bool := t.kind == k

def hasKind (k : Kind) (tokens : List Token) : Bool := tokens.any (·.is k)

/-- The number of UTF-16 code units of a text. -/
def unitLength (text : List Char) : Nat :=
  text.length + (text.filter fun c => 0xFFFF < c.toNat).length

def Token.stop (t : Token) : Nat := t.offset + unitLength t.text

end LintEngine.Yaml
