/-
The parts of a document as they are written: which tokens belong to which key, value or item. Nothing
is resolved, and nothing is refused: a token in the wrong place stays where it was met.
-/
import LintEngine.Yaml.Token

namespace LintEngine.Yaml

/-- An item of a list or an entry of a map: the tokens before the key, whether a mark announces the
key, the key, the tokens between key and value once the key is past, and the value. An item of a list
has no key. -/
structure Item (α : Type) where
  start : List Token := []
  explicit : Bool := false
  key : Option α := none
  sep : Option (List Token) := none
  value : Option α := none

inductive Tree
  /-- An alias, a scalar in its line or a token out of place, and what follows it in that line. -/
  | leaf (token : Token) (finish : Option (List Token))
  /-- A scalar below its header, in a collection of an indent. -/
  | block (indent : Nat) (header : List Token) (text : List Char)
  | map (offset indent : Nat) (items : List (Item Tree))
  | seq (offset indent : Nat) (items : List (Item Tree))
  /-- A collection in brackets. What follows the items starts with the closing bracket. -/
  | flow (opening : Token) (indent : Nat) (items : List (Item Tree)) (finish : List Token)
deriving Inhabited

namespace Tree

/-- Whether a tree can be the key of an entry without a mark of its own: it is a leaf or in
brackets. -/
def isInline : Tree → Bool
  | leaf token _ => token.kind.isLeaf
  | flow .. => true
  | _ => false

/-- Adds tokens to what follows a tree. -/
def addFinish (more : List Token) : Tree → Tree
  | leaf token finish => leaf token (some (finish.getD [] ++ more))
  | flow opening indent items finish => flow opening indent items (finish ++ more)
  | t => t

/-- What follows a tree, where anything can. -/
def finish? : Tree → Option (List Token)
  | leaf _ finish => finish
  | flow _ _ _ finish => some finish
  | _ => none

/-- The indent of a block collection. -/
def blockIndent? : Tree → Option Nat
  | map _ indent _ | seq _ indent _ => some indent
  | _ => none

def isBlockCollection (t : Tree) : Bool := t.blockIndent?.isSome

end Tree

/-- A document: the tokens before its content, the content, and what follows it. -/
structure Document where
  offset : Nat
  start : List Token := []
  value : Option Tree := none
  finish : Option (List Token) := none

/-- A part of a text that can hold several documents. -/
inductive Part
  | directive (line : List Char)
  | document (d : Document)
  /-- A mark that ends a document, and what follows it. -/
  | documentEnd (finish : List Token)
  | stray

end LintEngine.Yaml
