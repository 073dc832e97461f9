/-
What stands before a node: its tag and anchor, the mark that announces it, comments and space. Here it
is checked that all this is in order; what follows a node is checked in the same way.
-/
import LintEngine.Yaml.Node
import LintEngine.Yaml.Tree

namespace LintEngine.Yaml

/-- What stands before a node, from the tokens there. -/
structure Properties where
  /-- The mark that announces the node. -/
  mark : Option Token := none
  anchor : Option Token := none
  tag : Option Token := none
  comma : Option Token := none
  comment : String := ""
  /-- Whether there is an empty line. -/
  gap : Bool := false
  /-- Whether there is a line end. -/
  newline : Bool := false
  /-- The last line end after an anchor or a tag. -/
  lineAfter : Option Token := none
  start : Nat := 0
  stop : Nat := 0

/-- What comes after the tokens before a node, as far as they depend on it: whether it is a block
collection, whether it is in brackets, and whether a blank must part it from a tag or anchor. -/
structure Follower where
  block : Bool := false
  flow : Bool := false
  parted : Bool := false

/-- A token as what comes next. -/
def Follower.ofToken (t : Token) : Follower where
  parted := !t.is .blank && !t.is .lineEnd && !t.is .comma && !(t.is .plain && t.text.isEmpty)

/-- A tree as what comes next. -/
def Follower.ofTree : Tree → Follower
  | .leaf t _ => .ofToken t
  | .block .. => { parted := true }
  | .map .. | .seq .. => { block := true, parted := true }
  | .flow .. => { flow := true, parted := true }

/-- A tree if there is one, else the first of some tokens, as what comes next. -/
def Follower.of (tree : Option Tree) (tokens : List Token) : Follower :=
  match tree, tokens with
  | some t, _ => .ofTree t
  | none, t :: _ => .ofToken t
  | none, [] => {}

/-- Where tokens stand: between which brackets or else before which mark, in a part of which indent,
and whether they start a line. -/
structure Slot where
  flow : Bool := false
  mark : Kind
  indent : Nat
  fresh : Bool
  next : Follower

namespace Properties

/-- The state of a reader of tokens: the properties so far, whether a line has just begun, whether a
blank has just passed, whether one is due, the line ends since the last comment, the blank with a
tab that has just passed, and where the first property starts. -/
structure Reader where
  props : Properties := {}
  fresh : Bool
  spaced : Bool
  due : Bool := false
  commentGap : String := ""
  tab : Option Token := none
  start : Option Nat := none

namespace Reader

def comment? (r : Reader) (t : Token) : Option Reader :=
  let text := if t.text.tail.isEmpty then " " else String.ofList t.text.tail
  let comment := if r.props.comment = "" then text else r.props.comment ++ r.commentGap ++ text
  if r.spaced then
    some { r with props := { r.props with comment }, commentGap := "", fresh := false }
  else none

def lineEnd (s : Slot) (r : Reader) (t : Token) : Reader :=
  let text := String.ofList t.text
  let p := { r.props with
    newline := true
    lineAfter := if r.start.isSome then some t else r.props.lineAfter }
  let (p, commentGap) :=
    if !r.fresh then (p, r.commentGap ++ text)
    else if p.comment != "" then ({ p with comment := p.comment ++ text }, r.commentGap)
    else if p.mark.isNone || s.mark != .itemMark then ({ p with gap := true }, r.commentGap)
    else (p, r.commentGap)
  { r with props := p, commentGap, fresh := true, spaced := true }

def property (p : Properties) (t : Token) (r : Reader) : Reader :=
  { r with props := p, fresh := false, spaced := false, due := true, start := r.start.or t.offset }

def take? (s : Slot) (r : Reader) (t : Token) : Option Reader := do
  let isSpace := t.is .blank || t.is .lineEnd
  if r.due && !isSpace && !t.is .comma then none
  if r.tab.isSome && r.fresh && !t.is .comment && !t.is .lineEnd then none
  let r := { r with due := false, tab := none }
  let p := r.props
  if t.is s.mark then
    if r.start.isSome || p.mark.isSome then none
    let fresh := s.mark == .itemMark || s.mark == .keyMark
    return { r with props := { p with mark := some t }, fresh, spaced := false }
  match t.kind with
  | .blank =>
    let counts := !s.flow && (s.mark != .documentStart || !s.next.flow) && t.text.contains '\t'
    return { r with tab := if counts then some t else none, spaced := true }
  | .comment => r.comment? t
  | .lineEnd => return r.lineEnd s t
  | .anchor => if p.anchor.isSome then none else return r.property { p with anchor := some t } t
  | .tag => if p.tag.isSome then none else return r.property { p with tag := some t } t
  | .comma =>
    if !s.flow || p.comma.isSome then none
    return { r with props := { p with comma := some t }, fresh := false, spaced := false }
  | _ => none

end Reader

/-- The properties that tokens from an offset on spell; `none` when they are not in order. -/
def read? (s : Slot) (offset : Nat) (tokens : List Token) : Option Properties := do
  let r ← tokens.foldlM (Reader.take? s) { fresh := s.fresh, spaced := s.fresh }
  let stop := (tokens.getLast?.map Token.stop).getD offset
  if r.due && s.next.parted then none
  if r.tab.any fun t => (r.fresh && t.indent ≤ s.indent) || s.next.block then none
  return { r.props with start := r.start.getD stop, stop }

end Properties

/-! ## What follows a node -/

/-- The comment in what follows a node; `none` when there is more than space, or a comment without a
blank before it though one is due. -/
def finishComment? (due : Bool) : (spaced : Bool) → (comment gap : String) → List Token → Option String
  | _, comment, _, [] => some comment
  | spaced, comment, gap, t :: r =>
    match t.kind with
    | .blank => finishComment? due true comment gap r
    | .lineEnd =>
      finishComment? due true comment (if comment = "" then gap else gap ++ String.ofList t.text) r
    | .comment =>
      let text := if t.text.tail.isEmpty then " " else String.ofList t.text.tail
      if due && !spaced then none
      else finishComment? due spaced (if comment = "" then text else comment ++ gap ++ text) "" r
    | _ => none

def stopOf (offset : Nat) (tokens : List Token) : Nat :=
  tokens.foldl (fun n t => n + unitLength t.text) offset

/-- Where a node that is not written is, when the tokens before it end at an offset: behind the last
one that is no space, and the blanks after that one. -/
def emptyOffset (offset : Nat) (before : List Token) : Nat :=
  let space := (before.reverse.takeWhile (·.kind.isSpace)).reverse
  let back := offset - stopOf 0 space
  if space.length = before.length then back else stopOf back (space.takeWhile (·.is .blank))

end LintEngine.Yaml
