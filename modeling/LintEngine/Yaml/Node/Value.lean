/-
The value that a document stands for. An alias stands for the value of the last node before it that
bears its name; a node may hold an alias to itself, and its value is endless then. Such a value is
cut off at a depth that no reader of values reaches. Keys of objects are texts: a key that is a
collection goes by its spelling, and no key at all by the empty text.
-/
import LintEngine.Failure
import LintEngine.Yaml.Node.Spelling

namespace LintEngine.Yaml

/-! ## Aliases -/

/-- The names of the anchors met so far, the last one first, each with its number. -/
abbrev Names := List (String × Nat)

/-- Numbers an anchor, and adds its name. -/
def Marks.link (names : Names) (m : Marks) : Marks × Names :=
  match m.anchor with
  | some a => ({ m with anchor := some { a with number := names.length } }, (a.name, names.length) :: names)
  | none => (m, names)

mutual

/-- Numbers the anchors of a node, from the outside in, and finds what its aliases refer to. -/
def Node.link (names : Names) : Node → Node × Names
  | .absent => (.absent, names)
  | .scalar m s =>
    let (m, names) := m.link names
    (.scalar m s, names)
  | .alias m name _ => (.alias m name (names.lookup name), names)
  | .seq m items =>
    let (m, names) := m.link names
    let (items, names) := linkItems names items
    (.seq m items, names)
  | .map m entries =>
    let (m, names) := m.link names
    let (entries, names) := linkEntries names entries
    (.map m entries, names)
  | .set m entries =>
    let (m, names) := m.link names
    let (entries, names) := linkEntries names entries
    (.set m entries, names)

/-- Numbers the anchors of some nodes in their order. -/
def linkItems (names : Names) : List Node → List Node × Names
  | [] => ([], names)
  | n :: r =>
    let (n, names) := n.link names
    let (r, names) := linkItems names r
    (n :: r, names)

/-- Numbers the anchors of some entries, a key's before its value's. -/
def linkEntries (names : Names) : List (Node × Node) → List (Node × Node) × Names
  | [] => ([], names)
  | (key, value) :: r =>
    let (key, names) := key.link names
    let (value, names) := value.link names
    let (r, names) := linkEntries names r
    ((key, value) :: r, names)

end

/-! ## Anchored values -/

/-- A node with an anchor: how often it has been used, the greatest number of uses that one use of it
brings with it (zero before it is known), and its value once it is complete. -/
structure Anchored where
  number : Nat
  node : Node
  uses : Nat := 1
  weight : Nat := 0
  value : Option Value := none

/-- The nodes with anchors met so far, the last one first, and whether one of them was used within
itself. -/
structure Anchors where
  list : List Anchored := []
  endless : Bool := false

namespace Anchors

def find? (a : Anchors) (number : Nat) : Option Anchored := a.list.find? (·.number == number)

def set (a : Anchors) (x : Anchored) : Anchors :=
  { a with list := a.list.map fun y => if y.number == x.number then x else y }

def start (a : Anchors) (node : Node) : Anchors :=
  match node.marks.anchor with
  | some x => { a with list := { number := x.number, node } :: a.list }
  | none => a

def complete (a : Anchors) (node : Node) (v : Value) : Anchors :=
  match node.marks.anchor.bind fun x => a.find? x.number with
  | some x => a.set { x with value := some v }
  | none => a

end Anchors

mutual

/-- The greatest number of uses of anchors that one use of a node brings with it. -/
def Node.weight (a : Anchors) : Node → Nat
  | .absent | .scalar .. => 1
  | .alias _ _ target =>
    match target.bind a.find? with
    | some x => x.uses * x.weight
    | none => 0
  | .seq _ items => itemsWeight a items
  | .map _ entries | .set _ entries => entriesWeight a entries

def itemsWeight (a : Anchors) : List Node → Nat
  | [] => 0
  | n :: r => max (n.weight a) (itemsWeight a r)

def entriesWeight (a : Anchors) : List (Node × Node) → Nat
  | [] => 0
  | (key, value) :: r => max (max (key.weight a) (value.weight a)) (entriesWeight a r)

end

/-- The greatest number of uses of an anchor, those that it brings with it included. -/
def maxUses : Nat := 100

/-- Uses the node of an anchor once more; `none` if that is too often. -/
def Anchors.use? (a : Anchors) (x : Anchored) : Option Anchors :=
  let x := { x with uses := x.uses + 1 }
  let a := a.set x
  let x := if x.weight = 0 then { x with weight := x.node.weight a } else x
  if maxUses < x.uses * x.weight then none else some (a.set x)

/-! ## Members and keys -/

def isAtom : Value → Bool
  | .null | .missing | .bool _ | .number _ | .text _ => true
  | _ => false

/-- The number of the anchor whose node a node is or refers to. -/
def Node.identity : Node → Option Nat
  | .alias _ _ target => target
  | n => n.marks.anchor.map Anchor.number

/-- Whether two members are the same: equal scalars, where not-a-number counts as equal to itself, or
one and the same collection. -/
def sameMember (a b : Node × Value) : Bool :=
  if isAtom a.2 && isAtom b.2 then
    Node.sameScalar a.2 b.2 || (a.2 matches .number .nan && b.2 matches .number .nan)
  else !isAtom a.2 && !isAtom b.2 && a.1.identity.isSome && a.1.identity == b.1.identity

/-- The members without those that are the same as an earlier one. -/
def distinctMembers (members : List (Node × Value)) : List Value :=
  (members.foldl (fun seen m => if seen.any (sameMember m) then seen else seen ++ [m]) []).map Prod.snd

/-- The key that a node is in an object. -/
def keyText (d : Directives) (key : Node) : Value → String
  | .null | .missing => ""
  | .bool b => if b then "true" else "false"
  | .number n => n.text
  | .text s => s
  | _ => key.spell d

/-! ## Values -/

/-- The least value of the kind of a node. -/
def Node.blankValue : Node → Value
  | .seq .. => .list []
  | .set .. => .set []
  | .map .. => .object []
  | _ => .null

/-- The value of an alias; `known` holds values for the nodes that are not complete. -/
def aliasValue (known : List (Nat × Value)) (a : Anchors) (target : Option Nat) :
    Except Fault (Value × Anchors) :=
  match target.bind a.find? with
  | none => .error .alias
  | some x =>
    match a.use? x with
    | none => .error .alias
    | some a =>
      match x.value with
      | some v => .ok (v, a)
      | none => .ok ((known.lookup x.number).getD x.node.blankValue, { a with endless := true })

mutual

def Node.valueFrom (d : Directives) (known : List (Nat × Value)) (a : Anchors) :
    Node → Except Fault (Value × Anchors)
  | .absent => .ok (.null, a)
  | .alias _ _ target => aliasValue known a target
  | .scalar m s =>
    let node := Node.scalar m s
    .ok (s.value, (a.start node).complete node s.value)
  | .seq m items => do
    let node := Node.seq m items
    let (values, a) ← valuesFrom d known (a.start node) items
    let v := Value.list values
    return (v, a.complete node v)
  | .map m entries => do
    let node := Node.map m entries
    let (entries, a) ← entriesFrom d known (a.start node) entries
    let v := Value.ofEntries (entries.map fun (key, k, v) => (keyText d key k, v))
    return (v, a.complete node v)
  | .set m entries => do
    let node := Node.set m entries
    let (entries, a) ← entriesFrom d known (a.start node) entries
    let v := Value.set (distinctMembers (entries.map fun (key, k, _) => (key, k)))
    return (v, a.complete node v)

def valuesFrom (d : Directives) (known : List (Nat × Value)) (a : Anchors) :
    List Node → Except Fault (List Value × Anchors)
  | [] => .ok ([], a)
  | n :: r => do
    let (v, a) ← n.valueFrom d known a
    let (vs, a) ← valuesFrom d known a r
    return (v :: vs, a)

/-- The keys of some entries with their values, and the values, in their order. -/
def entriesFrom (d : Directives) (known : List (Nat × Value)) (a : Anchors) :
    List (Node × Node) → Except Fault (List (Node × Value × Value) × Anchors)
  | [] => .ok ([], a)
  | (key, value) :: r => do
    let (k, a) ← key.valueFrom d known a
    let (v, a) ← value.valueFrom d known a
    let (es, a) ← entriesFrom d known a r
    return ((key, k, v) :: es, a)

end

/-- The depth to which endless values are followed. -/
def endlessDepth : Nat := 8

/-- The value of a node with its aliases found; `rounds` is the number of times that an endless value
is put into itself. -/
def Node.valueIn (d : Directives) (node : Node) :
    (rounds : Nat) → List (Nat × Value) → Except Fault Value
  | 0, known => do return (← node.valueFrom d known {}).1
  | rounds + 1, known => do
    let (v, a) ← node.valueFrom d known {}
    if a.endless then
      node.valueIn d rounds (a.list.filterMap fun x => x.value.map fun v => (x.number, v))
    else return v

def Node.value (d : Directives) (node : Node) : Except Fault Value :=
  (node.link []).1.valueIn d endlessDepth []

end LintEngine.Yaml
