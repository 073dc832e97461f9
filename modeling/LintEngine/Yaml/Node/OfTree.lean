/-
The nodes that trees stand for. A tree is malformed when a token is out of place, when its layout does
not tell what belongs together, when two keys of a map are the same, or when a tag cannot be read;
it stands for no node then. Every node comes with the offset where it ends.
-/
import LintEngine.Yaml.BlockScalar
import LintEngine.Yaml.Node.Properties

namespace LintEngine.Yaml

/-! ## Marks -/

/-- The full name of the tag among the properties; the empty one without a tag. -/
def Directives.tagOf? (d : Directives) (p : Properties) : Option String :=
  match p.tag with
  | some t => d.tagName? t.text
  | none => some ""

/-- Puts the properties before a node around it. Before an empty node a comment counts as one behind
it. -/
def Node.withProperties? (p : Properties) (isEmpty : Bool) (n : Node) : Option Node := do
  let anchor := p.anchor.map fun t => ({ name := String.ofList t.text.tail } : Anchor)
  if anchor.any fun a => a.name == "" then none
  return n.mark fun m => { m with
    anchor := anchor.or m.anchor
    gap := p.gap || m.gap
    comment := if p.comment != "" && isEmpty then p.comment else m.comment
    before := if p.comment != "" && !isEmpty then p.comment else m.before }

/-- The node of a scalar that is not written, after tokens that end at an offset. -/
def emptyNode? (d : Directives) (p : Properties) (before : List Token) : Option (Node × Nat) := do
  let tag ← d.tagOf? p
  let node ← (Node.scalar { tag } (.resolve tag .plain "")).withProperties? p true
  return (node, if p.comment != "" then p.stop else emptyOffset p.stop before)

/-! ## Leaves -/

/-- The text and the style of a scalar in its line. -/
def leafText? (t : Token) : Option (Style × String) :=
  match t.kind with
  | .plain => (plainText? t.text).map (.plain, ·)
  | .singleQuoted => (singleQuotedText? t.text).map (.singleQuoted, ·)
  | .doubleQuoted => (doubleQuotedText? t.text).map (.doubleQuoted, ·)
  | _ => none

/-- The node of a leaf. -/
def leafNode? (d : Directives) (p : Properties) (t : Token) (finish : List Token) :
    Option (Node × Nat) := do
  let stop := stopOf t.stop finish
  if t.is .alias then
    let name := String.ofList t.text.tail
    if name = "" || p.anchor.isSome || p.tag.isSome then none
    let comment ← finishComment? true false "" "" finish
    let node ← (Node.alias { comment } name none).withProperties? p false
    return (node, stop)
  else
    let (style, text) ← leafText? t
    let comment ← finishComment? true false "" "" finish
    let tag ← d.tagOf? p
    let isEmpty := t.is .plain && t.text.isEmpty
    let node ← (Node.scalar { tag, comment } (.resolve tag style text)).withProperties? p isEmpty
    return (node, stop)

/-- The node of a block scalar. -/
def blockNode? (d : Directives) (root : Bool) (p : Properties) (indent : Nat) (header : List Token)
    (source : List Char) : Option (Node × Nat) := do
  let h ← BlockHeader.ofTokens? header
  let text ← h.text? root indent source
  let tag ← d.tagOf? p
  let scalar := Scalar.resolve tag .block (String.ofList text)
  let node ← (Node.scalar { tag, comment := h.comment } scalar).withProperties? p false
  let start := (header.head?.map (·.offset)).getD 0
  return (node, stopOf start header + unitLength source)

/-! ## Layout -/

/-- Whether tokens hold a line end. -/
def hasLineEnd (tokens : List Token) : Bool := hasKind .lineEnd tokens

mutual

/-- Whether a tree reaches beyond its line, or ends it. -/
def Tree.isMultiline : Tree → Bool
  | .leaf t finish => t.text.contains '\n' || (finish.any hasLineEnd)
  | .flow _ _ items _ => anyMultiline items
  | _ => true

/-- Whether one of some items in brackets reaches beyond its line. -/
def anyMultiline : List (Item Tree) → Bool
  | [] => false
  | ⟨start, _, key, sep, value⟩ :: r =>
    hasLineEnd start || sep.any hasLineEnd || optionMultiline key || optionMultiline value ||
      anyMultiline r

/-- Whether there is a tree that reaches beyond its line. -/
def optionMultiline : Option Tree → Bool
  | some t => t.isMultiline
  | none => false

end

namespace Tree

/-- The indent of a tree, which the key of a block map has in common with the map. -/
def indent? : Tree → Option Nat
  | leaf t _ => if t.is .stray then none else some t.indent
  | block indent _ _ | map _ indent _ | seq _ indent _ | flow _ indent _ _ => some indent

/-- Whether a tree is a block map. -/
def isBlockMap : Tree → Bool
  | map .. => true
  | _ => false

/-- Whether a tree is a block list. -/
def isBlockList : Tree → Bool
  | seq .. => true
  | _ => false

/-- Whether a tree is a block scalar. -/
def isBlockScalar : Tree → Bool
  | block .. => true
  | _ => false

end Tree

/-- The greatest distance between the start of a key without a mark and its colon. -/
def maxKeyLength : Nat := 1024

/-- Whether a key without a mark may stand in a block map: it is no list, and in the map's column. -/
def isPlaceable (indent : Nat) : Option Tree → Bool
  | some key => !key.isBlockList && key.indent?.all (· == indent)
  | none => true

/-- Whether the tag and anchor of a block list stand on lines of their own. -/
def Properties.endLine (p : Properties) : Bool :=
  let last := match p.anchor, p.tag with
    | some a, some t => some (if t.offset < a.offset then a else t)
    | a, t => a.or t
  last.all fun t => p.lineAfter.any fun l => t.offset ≤ l.offset

/-! ## Collections -/

/-- What has been read of a collection: where it ends so far, where items without content end, its
nodes in reverse, and its comment. -/
structure Gathered (α : Type) where
  stop : Nat
  idle : Option Nat := none
  nodes : List α := []
  comment : String := ""

/-- The node of a map: a set if the tag asks for one. No member of a set has a value. -/
def mapNode? (tag : String) (comment : String) (entries : List (Node × Node)) : Option Node :=
  if tag = Tag.set then
    if entries.all fun e => e.2.isBare then some (.set { tag, comment } entries) else none
  else some (.map { tag := if tag = bareTag then Tag.map else tag, comment } entries)

/-- The node of a list. -/
def seqNode (tag : String) (comment : String) (items : List Node) : Node :=
  .seq { tag := if tag = bareTag then Tag.seq else tag, comment } items

/-- The comment right behind a comma belongs to the item before it: that comment, and the rest. -/
def splitComment (start : List Token) (comment : String) : String × String :=
  match start.dropWhile fun t => t.is .comma || t.is .blank with
  | t :: _ =>
    if t.is .comment then
      let own := String.ofList t.text.tail
      if own = "" then ("", comment) else (own, (comment.drop (own.length + 1)).copy)
    else ("", comment)
  | [] => ("", comment)

/-- Adds a comment to the last item. -/
def commentLast (comment : String) : List Node → List Node
  | [] => []
  | n :: r => n.addComment comment :: r

/-- Adds a comment to the last entry. -/
def commentLastEntry (comment : String) : List (Node × Node) → List (Node × Node)
  | [] => []
  | (key, .absent) :: r => (key.addComment comment, .absent) :: r
  | (key, value) :: r => (key, value.addComment comment) :: r

/-- Whether the commas before an item are in order: one between two items, none before the first. -/
def Properties.allowsComma (p : Properties) (first : Bool) : Bool := p.comma.isSome != first

/-- The entry of a map in brackets, or the pair in a list, with a key after its properties: `start`
is the place where these start, and `readValue` reads the value after its own. -/
def flowEntry? (indent : Nat) (single : Bool) (start : Nat) (sep : List Token) (value : Option Tree)
    (readValue : Properties → Option (Node × Nat)) :
    Node × Nat → Option ((Node × Node) × Nat)
  | (key, keyStop) => do
    let between ← Properties.read?
      { flow := true, mark := .valueMark, indent, fresh := false, next := .of value [] } keyStop sep
    match between.mark with
    | some colon =>
      if single && hasLineEnd (sep.takeWhile (!·.is .valueMark)) then none
      if single && start + maxKeyLength < colon.offset then none
      let (valueNode, stop) ← readValue between
      if value.any Tree.isBlockCollection then none
      return ((key, valueNode), stop)
    | none =>
      if value.isSome then none
      return ((key.addComment between.comment, .absent), between.stop)

mutual

/-- The node of a tree after its properties. `root` tells whether it is the whole document. -/
def nodeOf? (d : Directives) (root : Bool) (p : Properties) : Tree → Option (Node × Nat)
  | .leaf t finish => leafNode? d p t (finish.getD [])
  | .block indent header source => blockNode? d root p indent header source
  | .map offset indent items => do
    let tag ← d.tagOf? p
    let g ← entriesOf? d indent { stop := offset } items
    if g.idle.any (· < g.stop) then none
    let node ← mapNode? tag g.comment g.nodes.reverse
    return (← node.withProperties? p false, g.idle.getD g.stop)
  | .seq offset indent items => do
    let tag ← d.tagOf? p
    if !p.endLine then none
    let g ← itemsOf? d indent { stop := offset } items
    return (← (seqNode tag g.comment g.nodes.reverse).withProperties? p false, g.idle.getD g.stop)
  | .flow opening indent items finish => do
    let tag ← d.tagOf? p
    let close ← finish.head?
    let comment ← finishComment? true false "" "" finish.tail
    let stop := stopOf close.stop finish.tail
    if opening.is .mapStart then
      if !close.is .mapEnd then none
      let g ← flowEntriesOf? d indent true { stop := opening.stop } items
      let node ← mapNode? tag (Node.joinComments g.comment comment) g.nodes.reverse
      return (← node.withProperties? p false, stop)
    else
      if !close.is .seqEnd then none
      let g ← flowItemsOf? d indent true { stop := opening.stop } items
      let node := seqNode tag (Node.joinComments g.comment comment) g.nodes.reverse
      return (← node.withProperties? p false, stop)

/-- The node of a tree, or the empty one if there is none, after tokens with its properties. -/
def optionNodeOf? (d : Directives) (p : Properties) (before : List Token) :
    Option Tree → Option (Node × Nat)
  | some t => nodeOf? d false p t
  | none => emptyNode? d p before

/-- The entries of a block map of an indent. -/
def entriesOf? (d : Directives) (indent : Nat) (g : Gathered (Node × Node)) :
    List (Item Tree) → Option (Gathered (Node × Node))
  | [] => some g
  | ⟨start, _, key, sep, value⟩ :: r => do
    let before ← Properties.read?
      { mark := .keyMark, indent, fresh := true, next := .of key (sep.getD []) } g.stop start
    let implicit := before.mark.isNone
    if implicit && !isPlaceable indent key then none
    if implicit && before.anchor.isNone && before.tag.isNone && sep.isNone then
      entriesOf? d indent
        { g with idle := some before.stop, comment := Node.joinComments g.comment before.comment } r
    else
      if implicit && (before.lineAfter.isSome || key.any Tree.isMultiline) then none
      if before.mark.any (·.indent != indent) then none
      let (keyNode, keyStop) ← optionNodeOf? d before start key
      if g.nodes.any fun e => e.1.sameKey keyNode then none
      let between ← Properties.read?
        { mark := .valueMark, indent, fresh := key.all Tree.isBlockScalar
          next := .of value [] } keyStop (sep.getD [])
      match between.mark with
      | some colon =>
        if implicit && value.any Tree.isBlockMap && !between.newline then none
        if implicit && before.start + maxKeyLength < colon.offset then none
        let (valueNode, stop) ← optionNodeOf? d between (sep.getD []) value
        entriesOf? d indent { g with stop, nodes := (keyNode, valueNode) :: g.nodes } r
      | none =>
        if implicit then none
        let keyNode := keyNode.addComment between.comment
        entriesOf? d indent { g with stop := between.stop, nodes := (keyNode, .absent) :: g.nodes } r

/-- The items of a block list of an indent. -/
def itemsOf? (d : Directives) (indent : Nat) (g : Gathered Node) :
    List (Item Tree) → Option (Gathered Node)
  | [] => some g
  | ⟨start, _, _, _, value⟩ :: r => do
    let before ← Properties.read?
      { mark := .itemMark, indent, fresh := true, next := .of value [] } g.stop start
    if before.mark.isNone then
      if before.anchor.isSome || before.tag.isSome || value.isSome then none
      let comment := if before.comment = "" then g.comment else before.comment
      itemsOf? d indent { g with idle := some before.stop, comment } r
    else
      let (node, stop) ← optionNodeOf? d before start value
      itemsOf? d indent { g with stop, nodes := node :: g.nodes } r

/-- The entries of a map in brackets; `first` tells whether the next one is the first. -/
def flowEntriesOf? (d : Directives) (indent : Nat) (first : Bool) (g : Gathered (Node × Node)) :
    List (Item Tree) → Option (Gathered (Node × Node))
  | [] => some g
  | ⟨start, _, key, sep, value⟩ :: r => do
    let before ← Properties.read?
      { flow := true, mark := .keyMark, indent, fresh := false, next := .of key (sep.getD []) }
      g.stop start
    let isIdle := before.mark.isNone && before.anchor.isNone && before.tag.isNone && sep.isNone &&
      value.isNone
    if isIdle then
      if (first && before.comma.isSome) || !r.isEmpty then none
      return { g with stop := before.stop, comment := Node.joinComments g.comment before.comment }
    else
      if !before.allowsComma first then none
      let (own, comment) := if first then ("", before.comment) else splitComment start before.comment
      let nodes := commentLastEntry own g.nodes
      let keyed ← optionNodeOf? d { before with comment } start key
      if key.any Tree.isBlockCollection then none
      let (entry, stop) ← flowEntry? indent false before.start (sep.getD []) value
        (fun p => optionNodeOf? d p (sep.getD []) value) keyed
      if nodes.any fun e => e.1.sameKey entry.1 then none
      flowEntriesOf? d indent false { g with stop, nodes := entry :: nodes } r

/-- The items of a list in brackets; `first` tells whether the next one is the first. -/
def flowItemsOf? (d : Directives) (indent : Nat) (first : Bool) (g : Gathered Node) :
    List (Item Tree) → Option (Gathered Node)
  | [] => some g
  | ⟨start, _, key, sep, value⟩ :: r => do
    let before ← Properties.read?
      { flow := true, mark := .keyMark, indent, fresh := false, next := .of key (sep.getD []) }
      g.stop start
    let isIdle := before.mark.isNone && before.anchor.isNone && before.tag.isNone && sep.isNone &&
      value.isNone
    if isIdle then
      if (first && before.comma.isSome) || !r.isEmpty then none
      return { g with stop := before.stop, comment := Node.joinComments g.comment before.comment }
    else
      if before.mark.isNone && optionMultiline key then none
      if !before.allowsComma first then none
      let (own, comment) := if first then ("", before.comment) else splitComment start before.comment
      let nodes := commentLast own g.nodes
      if sep.isNone && before.mark.isNone then
        let (node, stop) ← optionNodeOf? d { before with comment } (sep.getD []) value
        if value.any Tree.isBlockCollection then none
        flowItemsOf? d indent false { g with stop, nodes := node :: nodes } r
      else
        let keyed ← optionNodeOf? d { before with comment } start key
        if key.any Tree.isBlockCollection then none
        let (entry, stop) ← flowEntry? indent before.mark.isNone before.start (sep.getD []) value
          (fun p => optionNodeOf? d p (sep.getD []) value) keyed
        flowItemsOf? d indent false { g with stop, nodes := .map {} [entry] :: nodes } r

end

end LintEngine.Yaml
