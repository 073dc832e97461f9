/-
The nodes of a document: what its parts stand for, together with what is written around them. A node
keeps how it was written, since the key of an object that is no scalar goes by its spelling.
-/
import LintEngine.Yaml.Scalar

namespace LintEngine.Yaml

/-- A name that later aliases can refer to, and the number of names before it in the document. -/
structure Anchor where
  name : String
  number : Nat := 0

/-- What is written around a node. -/
structure Marks where
  anchor : Option Anchor := none
  /-- The full name of the tag; the empty one if there is none. -/
  tag : String := ""
  /-- The comment behind the node. -/
  comment : String := ""
  /-- The comment in front of the node. -/
  before : String := ""
  /-- Whether an empty line comes before the node. -/
  gap : Bool := false

/-- A node of a document. -/
inductive Node
  /-- A value that is not written. -/
  | absent
  | scalar (marks : Marks) (s : Scalar)
  /-- A reference to the anchor of a number. -/
  | alias (marks : Marks) (name : String) (target : Option Nat)
  | seq (marks : Marks) (items : List Node)
  | map (marks : Marks) (entries : List (Node × Node))
  | set (marks : Marks) (entries : List (Node × Node))

instance : Inhabited Node := ⟨.absent⟩

namespace Node

/-- What is written around a node. -/
def marks : Node → Marks
  | .absent => {}
  | .scalar m _ | .alias m _ _ | .seq m _ | .map m _ | .set m _ => m

/-- Changes what is written around a node. -/
def mark (f : Marks → Marks) : Node → Node
  | .absent => .absent
  | .scalar m s => .scalar (f m) s
  | .alias m name target => .alias (f m) name target
  | .seq m items => .seq (f m) items
  | .map m entries => .map (f m) entries
  | .set m entries => .set (f m) entries

/-- Whether a node is a collection. -/
def isCollection : Node → Bool
  | seq .. | map .. | set .. => true
  | _ => false

/-- Joins two comments. -/
def joinComments (a b : String) : String := if a = "" then b else if b = "" then a else a ++ "\n" ++ b

/-- Adds a comment behind a node. -/
def addComment (comment : String) (n : Node) : Node :=
  n.mark fun m => { m with comment := joinComments m.comment comment }

/-! ## Keys -/

/-- Whether two scalars are the same key. Not-a-number is no key twice, and a zero has no sign. -/
def sameScalar : Value → Value → Bool
  | .null, .null => true
  | .bool a, .bool b => a == b
  | .number a, .number b => (a == b && a != .nan) || (a.isZero && b.isZero)
  | .text a, .text b => a == b
  | _, _ => false

/-- Whether two nodes are the same key. Only scalars can be told to be. -/
def sameKey : Node → Node → Bool
  | scalar _ a, scalar _ b => sameScalar a.value b.value
  | _, _ => false

/-- Whether an entry has no value but one that says nothing at all: it stands for nothing, and has
neither a tag nor a comment. -/
def isBare : Node → Bool
  | absent => true
  | scalar m s => sameScalar s.value .null && m.tag == "" && m.comment == "" && m.before == ""
  | _ => false

end Node

end LintEngine.Yaml
