/-
Building trees from tokens, one token after the other. Open parts stand on a stack, the innermost
first. A token goes to the innermost part that it can belong to, by its kind and its indent; the
parts inside that one are complete and go to their places.
-/
import LintEngine.Yaml.Tree

namespace LintEngine.Yaml

/-! ## Open parts -/

/-- A part that is not complete. Collections have their items before the last one in reverse; the last
one is where tokens go. -/
inductive Frame
  | document (d : Document)
  | leaf (token : Token) (finish : Option (List Token))
  | block (header : List Token) (text : List Char)
  | map (offset indent : Nat) (earlier : List (Item Tree)) (last : Item Tree)
  | seq (offset indent : Nat) (earlier : List (Item Tree)) (last : Item Tree)
  | flow (opening : Token) (indent : Nat) (items : List (Item Tree)) (finish : List Token)
  | documentEnd (finish : List Token)
deriving Inhabited

namespace Frame

def indent : Frame → Nat
  | map _ indent _ _ | seq _ indent _ _ | flow _ indent _ _ => indent
  | _ => 0

def isFlow : Frame → Bool
  | flow .. => true
  | _ => false

def isEnd : Frame → Bool
  | documentEnd _ => true
  | _ => false

/-- The tokens before what comes next in a frame. -/
def props : Frame → List Token
  | document d => d.start
  | map _ _ _ last => last.sep.getD last.start
  | seq _ _ _ last => last.start
  | _ => []

/-- Replaces the tokens before what comes next. -/
def withProps (tokens : List Token) : Frame → Frame
  | document d => document { d with start := tokens }
  | map offset indent earlier last =>
    map offset indent earlier
      (if last.sep.isSome then { last with sep := some tokens } else { last with start := tokens })
  | seq offset indent earlier last => seq offset indent earlier { last with start := tokens }
  | f => f

end Frame

/-! ## Tokens -/

/-- Whether a token of a kind cannot belong to a key after it. -/
def Kind.endsProps (k : Kind) : Bool :=
  k == .documentStart || k == .keyMark || k == .valueMark || k == .itemMark || k == .lineEnd

/-- The tokens that stay with a part, and those that belong to the first key in it. -/
def splitProps (tokens : List Token) : List Token × List Token :=
  let n := (tokens.reverse.takeWhile (!·.kind.endsProps)).length
  let (kept, line) := tokens.splitAt (tokens.length - n)
  let (blanks, own) := line.span (·.is .blank)
  (kept ++ blanks, own)

/-- Takes the tokens that belong to the first key in a frame from it. -/
def Frame.takeProps (f : Frame) : Frame × List Token :=
  let (kept, own) := splitProps f.props
  (f.withProps kept, own)

/-- The items of a list in brackets: what has no colon and no mark of a key is a value. -/
def listItem (item : Item Tree) : Item Tree :=
  match item.sep with
  | some sep =>
    if item.value.isNone && !hasKind .keyMark item.start && !hasKind .valueMark sep then
      match item.key with
      | some key =>
        if key.isInline then
          { item with key := none, sep := none, value := some (key.addFinish sep) }
        else { item with start := item.start ++ sep, key := none, sep := none, value := some key }
      | none => { item with start := item.start ++ sep, sep := none }
    else item
  | none => item

/-- The items of a collection in brackets in reverse, as they are when the collection is complete. -/
def flowItems (opening : Token) (items : List (Item Tree)) : List (Item Tree) :=
  if opening.is .seqStart then items.map listItem else items

/-- The tree of a frame under another one. -/
def Frame.tree (below : Option Frame) : Frame → Tree
  | leaf token finish => .leaf token finish
  | block header text => .block ((below.map Frame.indent).getD 0) header text
  | map offset indent earlier last => .map offset indent (earlier.reverse ++ [last])
  | seq offset indent earlier last => .seq offset indent (earlier.reverse ++ [last])
  | flow opening indent items finish =>
    let indent := match below with
      | some (.document _) => 0
      | _ => indent
    .flow opening indent (flowItems opening items).reverse finish
  | document _ | documentEnd _ => default

/-- Separates the space at the end of a block collection, which belongs to the part around it. -/
def Tree.splitTrailing (t : Tree) : Tree × Option (List Token) :=
  let split (indent : Nat) (items : List (Item Tree)) : Option (List (Item Tree) × List Token) := do
    let last ← items.getLast?
    let outer := indent == 0 || last.start.all fun t => !t.is .comment || t.indent < indent
    if last.sep.isNone && last.value.isNone && last.key.isNone && !last.start.isEmpty &&
        last.start.all (·.kind.isSpace) && outer then
      some (items.dropLast, last.start)
    else none
  match t with
  | .map offset indent items =>
    match split indent items with
    | some (items, rest) => (.map offset indent items, some rest)
    | none => (t, none)
  | .seq offset indent items =>
    match split indent items with
    | some (items, rest) => (.seq offset indent items, some rest)
    | none => (t, none)
  | _ => (t, none)

/-! ## Builders -/

/-- What has been built: the open parts, the innermost first, and the complete ones, the last one
first. `fresh` tells whether a line has only begun, so that blanks and marks indent what follows;
`keyLine` whether a key of a block map stands in the line. -/
structure Builder where
  stack : List Frame := []
  fresh : Bool := true
  indent : Nat := 0
  offset : Nat := 0
  keyLine : Bool := false
  parts : List Part := []

namespace Builder

def emit (p : Part) (b : Builder) : Builder := { b with parts := p :: b.parts }

def enter (f : Frame) (b : Builder) : Builder := { b with stack := f :: b.stack }

def setTop (f : Frame) (b : Builder) : Builder := { b with stack := f :: b.stack.tail }

/-- Puts a tree into the innermost part; `fuel` bounds the number of parts that are closed for it. -/
def place (fuel : Nat) (tree : Tree) (b : Builder) : Builder :=
  match fuel, b.stack with
  | 0, _ => b
  | _, [] => b.emit .stray
  | fuel + 1, top :: below =>
    match top with
    | .document d =>
      let (tree, rest) := tree.splitTrailing
      b.setTop (.document { d with value := some tree, finish := rest.or d.finish })
    | .block header text =>
      match tree with
      | .leaf token _ => b.setTop (.block (header ++ [token]) text)
      | _ => b
    | .map offset indent earlier last =>
      if last.value.isSome then
        { b.setTop (.map offset indent (last :: earlier) { key := some tree, sep := some [] }) with
          keyLine := true }
      else if last.sep.isSome then
        let (tree, rest) := tree.splitTrailing
        let last := { last with value := some tree }
        match rest with
        | some start => b.setTop (.map offset indent (last :: earlier) { start })
        | none => b.setTop (.map offset indent earlier last)
      else
        { b.setTop (.map offset indent earlier { last with key := some tree, sep := some [] }) with
          keyLine := !last.explicit }
    | .seq offset indent earlier last =>
      let (tree, rest) := tree.splitTrailing
      let (earlier, last) := if last.value.isSome then (last :: earlier, { value := some tree })
        else (earlier, { last with value := some tree })
      match rest with
      | some start => b.setTop (.seq offset indent (last :: earlier) { start })
      | none => b.setTop (.seq offset indent earlier last)
    | .flow opening indent items finish =>
      let key : Item Tree := { key := some tree, sep := some [] }
      let items := match items with
        | [] => [key]
        | last :: earlier =>
          if last.value.isSome then key :: last :: earlier
          else if last.sep.isSome then { last with value := some tree } :: earlier
          else { last with key := some tree, sep := some [] } :: earlier
      b.setTop (.flow opening indent items finish)
    | .leaf .. | .documentEnd _ =>
      place fuel tree (place fuel (top.tree below.head?) { b with stack := below })

def close (b : Builder) : Builder :=
  match b.stack with
  | [] => b.emit .stray
  | .document d :: below => { b with stack := below }.emit (.document d)
  | .documentEnd finish :: below => { b with stack := below }.emit (.documentEnd finish)
  | top :: below => place (b.stack.length + 1) (top.tree below.head?) { b with stack := below }

def closeMany : Nat → Builder → Builder
  | 0, b => b
  | n + 1, b => if b.stack.isEmpty then b else closeMany n b.close

def closeAll (b : Builder) : Builder := closeMany b.stack.length b

/-- Puts a token that fits nowhere into the innermost part. -/
def placeStray (t : Token) (b : Builder) : Builder :=
  place (b.stack.length + 1) (.leaf { t with kind := .stray } none) b

/-- The part that a token opens, the innermost part without the tokens that belong to it, and whether
a key stands in the line then. -/
def opened? (t : Token) (b : Builder) : Option (Builder × Frame) :=
  match t.kind with
  | .alias | .plain | .singleQuoted | .doubleQuoted => some (b, .leaf t none)
  | .blockHeader => some (b, .block [t] [])
  | .mapStart | .seqStart => some (b, .flow t b.indent [] [])
  | .itemMark => some (b, .seq t.offset b.indent [] { start := [t] })
  | .keyMark | .valueMark =>
    let (top, props) := b.stack.headD default |>.takeProps
    let item : Item Tree := if t.is .keyMark then { start := props ++ [t], explicit := true }
      else { start := props, sep := some [t] }
    some ({ b.setTop top with keyLine := true }, .map t.offset b.indent [] item)
  | _ => none

/-- Opens the part that a token opens. -/
def openWith? (t : Token) (b : Builder) : Option Builder :=
  (b.opened? t).map fun (b, f) => b.enter f

/-! ## Places of tokens -/

/-- Whether a token ends a part that is followed by no more than the rest of its line. -/
def endsLine (k : Kind) : Bool :=
  k == .comma || k == .documentStart || k == .documentEnd || k == .seqEnd || k == .mapEnd ||
    k == .valueMark

/-- A token outside all documents. -/
def atTop (t : Token) (b : Builder) : Builder :=
  match t.kind with
  | .directive => b.emit (.directive t.text)
  | .byteOrderMark | .blank | .comment | .lineEnd => b
  | .bareStart => b.enter (.document { offset := t.offset })
  | .documentStart => b.enter (.document { offset := t.offset, start := [t] })
  | _ => b.emit .stray

/-- What a token does after a complete part: the part `ended`, with the token behind it, or the
builder after which the token is due again. -/
def afterPart (t : Token) (ended : List Token → Frame) (finish : List Token) (b : Builder) :
    Builder × Bool :=
  if endsLine t.kind then (b.close, true)
  else
    let b := b.setTop (ended (finish ++ [t]))
    if t.is .lineEnd then ({ b with keyLine := false }.close, false) else (b, false)

/-- A token in a document. -/
def inDocument (t : Token) (d : Document) (b : Builder) : Builder × Bool :=
  if d.value.isSome then
    b.afterPart t (fun finish => .document { d with finish := some finish }) (d.finish.getD [])
  else
    let added := b.setTop (.document { d with start := d.start ++ [t] })
    match t.kind with
    | .documentStart => if d.start.all (·.kind.isSpace) then (added, false) else (b.close, true)
    | .anchor | .tag | .blank | .comment | .lineEnd => (added, false)
    | _ => ((b.openWith? t).getD (b.emit .stray), false)

/-- A token after a leaf: a colon makes it the first key of a block map. -/
def atLeaf (t : Token) (token : Token) (finish : Option (List Token)) (b : Builder) :
    Builder × Bool :=
  if t.is .valueMark then
    let (top, start) := (b.stack.tail.headD default).takeProps
    let item : Item Tree :=
      { start, key := some (.leaf token none), sep := some (finish.getD [] ++ [t]) }
    ({ b with
      stack := .map token.offset token.indent [] item :: top :: b.stack.tail.tail
      keyLine := true }, false)
  else b.afterPart t (fun finish => .leaf token (some finish)) (finish.getD [])

def inBlock (t : Token) (header : List Token) (b : Builder) : Builder × Bool :=
  if t.kind.isSpace then (b.setTop (.block (header ++ [t]) []), false)
  else if t.is .plain then
    ({ b.setTop (.block header t.text) with fresh := true, indent := 0 }.close, false)
  else (b.close, true)

/-- The tokens after a key whose value is missing, split before the second line end in a row: what
comes then belongs to the next entry. -/
def splitSep (indent : Nat) (sep : List Token) : List Token × List Token :=
  let lineEnds := sep.zipIdx.foldl (fun (found : List Nat) (t, i) =>
    match t.kind with
    | .lineEnd => found ++ [i]
    | .blank => found
    | .comment => if indent < t.indent then [] else found
    | _ => []) []
  match lineEnds with
  | _ :: second :: _ => sep.splitAt second
  | _ => (sep, [])

/-- The items of a block collection once a comment has been met: one further right belongs to what
comes before it. -/
def withComment? (t : Token) (indent : Nat) (earlier : List (Item Tree)) (last : Item Tree) :
    Option (List (Item Tree) × Item Tree) :=
  if t.is .comment && indent < t.indent &&
      last.start.all fun s => s.is .lineEnd || s.is .blank then
    match earlier with
    | prev :: rest =>
      match prev.value with
      | some v =>
        if v.finish?.isSome then
          some (rest, { prev with value := some (v.addFinish (last.start ++ [t])) })
        else none
      | none => none
    | [] => none
  else none

/-- A line end after the last item of a block collection: with a comment before it, it belongs to the
item. -/
def endItem (t : Token) (earlier : List (Item Tree)) (last : Item Tree) (value : Tree) :
    List (Item Tree) × Item Tree :=
  if (value.finish?.bind List.getLast?).any (·.is .comment) then
    (earlier, { last with value := some (value.addFinish [t]) })
  else (last :: earlier, { start := [t] })

def spaceInMap (t : Token) (offset indent : Nat) (earlier : List (Item Tree)) (last : Item Tree)
    (b : Builder) : Builder :=
  let (earlier, last) := match last.value, last.sep with
    | some value, _ =>
      if t.is .lineEnd then endItem t earlier last value
      else (last :: earlier, { start := [t] })
    | none, some sep => (earlier, { last with sep := some (sep ++ [t]) })
    | none, none =>
      (withComment? t indent earlier last).getD (earlier, { last with start := last.start ++ [t] })
  let b := b.setTop (.map offset indent earlier last)
  if t.is .lineEnd then { b with keyLine := false } else b

/-- A colon in a block map at an entry with a mark for its key; `start` is what belongs to the next
entry, if it comes next. -/
def valueAfterMark (t : Token) (offset indent : Nat) (earlier : List (Item Tree)) (last : Item Tree)
    (start : List Token) (b : Builder) : Builder :=
  let here (last : Item Tree) := b.setTop (.map offset indent earlier last)
  let inner (last item : Item Tree) := (here last).enter (.map t.offset b.indent [] item)
  match last.sep with
  | none =>
    if hasKind .lineEnd last.start then here { last with key := none, sep := some [t] }
    else
      let (kept, own) := splitProps last.start
      inner { last with start := kept } { start := own, sep := some [t] }
  | some sep =>
    if last.value.isSome then
      b.setTop (.map offset indent (last :: earlier) { sep := some [t] })
    else if hasKind .valueMark sep then inner last { start, sep := some [t] }
    else if last.key.any Tree.isInline && !hasKind .lineEnd sep then
      let (kept, own) := splitProps last.start
      inner { last with start := kept, key := none, sep := none }
        { start := own, key := last.key, sep := some (sep ++ [t]) }
    else here { last with sep := some (sep ++ start ++ [t]) }

/-- A colon in a block map at another entry. -/
def valueInMap (t : Token) (offset indent : Nat) (earlier : List (Item Tree)) (last : Item Tree)
    (start : List Token) (atNext : Bool) (b : Builder) : Builder :=
  match last.sep with
  | none => b.setTop (.map offset indent earlier { last with key := none, sep := some [t] })
  | some sep =>
    if last.value.isSome || atNext then
      b.setTop (.map offset indent (last :: earlier) { start, sep := some [t] })
    else if hasKind .valueMark sep then
      (b.setTop (.map offset indent earlier last)).enter
        (.map t.offset b.indent [] { sep := some [t] })
    else b.setTop (.map offset indent earlier { last with sep := some (sep ++ [t]) })

def inMap (t : Token) (offset indent : Nat) (earlier : List (Item Tree)) (last : Item Tree)
    (b : Builder) : Builder × Bool :=
  if t.kind.isSpace then (b.spaceInMap t offset indent earlier last, false)
  else if b.indent < indent then (b.close, true)
  else
    let atIndent := !b.keyLine && b.indent == indent
    let atNext := atIndent && (last.sep.isSome || last.explicit) && !t.is .itemMark
    let (sep, start) := match last.sep with
      | some sep =>
        if atNext && last.value.isNone then
          let (kept, rest) := splitSep indent sep
          (some kept, rest)
        else (some sep, [])
      | none => (none, [])
    let last := { last with sep }
    let goesOn := atNext || last.value.isSome
    let here (last : Item Tree) := b.setTop (.map offset indent earlier last)
    let next (item : Item Tree) := b.setTop (.map offset indent (last :: earlier) item)
    let keyed (b : Builder) : Builder × Bool := ({ b with keyLine := true }, false)
    match t.kind with
    | .anchor | .tag =>
      if goesOn then keyed (next { start := start ++ [t] })
      else match sep with
        | some sep => (here { last with sep := some (sep ++ [t]) }, false)
        | none => (here { last with start := last.start ++ [t] }, false)
    | .keyMark =>
      if sep.isNone && !last.explicit then
        keyed (here { last with start := last.start ++ [t], explicit := true })
      else if goesOn then keyed (next { start := start ++ [t], explicit := true })
      else keyed ((here last).enter (.map t.offset b.indent [] { start := [t], explicit := true }))
    | .valueMark =>
      keyed (if last.explicit then b.valueAfterMark t offset indent earlier last start
        else b.valueInMap t offset indent earlier last start atNext)
    | .alias | .plain | .singleQuoted | .doubleQuoted =>
      let leaf := Tree.leaf t none
      if goesOn then keyed (next { start, key := some leaf, sep := some [] })
      else if sep.isSome then ((here last).enter (.leaf t none), false)
      else keyed (here { last with key := some leaf, sep := some [] })
    | _ =>
      match (here last).opened? t with
      | some (b, f) =>
        if t.is .itemMark then
          if !last.explicit && sep.any (!hasKind .lineEnd ·) then (b.placeStray t, false)
          else (b.enter f, false)
        else if atIndent then ((next { start }).enter f, false)
        else (b.enter f, false)
      | none => ((here last).close, true)

def inSeq (t : Token) (offset indent : Nat) (earlier : List (Item Tree)) (last : Item Tree)
    (b : Builder) : Builder × Bool :=
  let set (p : List (Item Tree) × Item Tree) := (b.setTop (.seq offset indent p.1 p.2), false)
  let add := (earlier, { last with start := last.start ++ [t] })
  let next := (last :: earlier, ({ start := [t] } : Item Tree))
  let other : Builder × Bool :=
    match if indent < b.indent then b.openWith? t else none with
    | some b => (b, false)
    | none => (b.close, true)
  match t.kind with
  | .lineEnd =>
    match last.value with
    | some value => set (endItem t earlier last value)
    | none => set add
  | .blank | .comment =>
    if last.value.isSome then set next else set ((withComment? t indent earlier last).getD add)
  | .anchor | .tag => if last.value.isSome || b.indent ≤ indent then other else set add
  | .itemMark =>
    if b.indent != indent then other
    else if last.value.isSome || hasKind .itemMark last.start then set next
    else set add
  | _ => other

/-- Closes the collections in brackets up to the outermost one. -/
def breakFlow : (fuel : Nat) → Builder → Builder
  | 0, b => b
  | fuel + 1, b =>
    let b := b.close
    if b.stack.head?.any Frame.isFlow then breakFlow fuel b else b

/-- A token in a collection in brackets that is open. -/
def inFlow (t : Token) (opening : Token) (indent : Nat) (items : List (Item Tree)) (b : Builder) :
    Builder × Bool :=
  let set (items : List (Item Tree)) := (b.setTop (.flow opening indent items []), false)
  let (last, earlier) : Item Tree × List (Item Tree) := match items with
    | [] => ({ value := some default }, [])
    | last :: earlier => (last, earlier)
  let add : Item Tree := match last.sep with
    | some sep => { last with sep := some (sep ++ [t]) }
    | none => { last with start := last.start ++ [t] }
  match t.kind with
  | .comma | .keyMark =>
    if items.isEmpty || last.sep.isSome then set ({ start := [t] } :: items)
    else set ({ last with start := last.start ++ [t] } :: earlier)
  | .valueMark =>
    if last.value.isSome then set ({ sep := some [t] } :: items)
    else set ({ last with sep := some (last.sep.getD [] ++ [t]) } :: earlier)
  | .blank | .comment | .lineEnd | .anchor | .tag =>
    if last.value.isSome then set ({ start := [t] } :: items) else set (add :: earlier)
  | .alias | .plain | .singleQuoted | .doubleQuoted =>
    let leaf := Tree.leaf t none
    if last.value.isSome then set ({ key := some leaf, sep := some [] } :: items)
    else if last.sep.isSome then (b.enter (.leaf t none), false)
    else set ({ last with key := some leaf, sep := some [] } :: earlier)
  | .mapEnd | .seqEnd => (b.setTop (.flow opening indent items [t]), false)
  | _ =>
    match b.openWith? t with
    | some b => (b, false)
    | none => (b.close, true)

/-- A token after a collection in brackets: a colon makes it the first key of a block map, unless a
block map of its indent holds it. -/
def afterFlow (t : Token) (opening : Token) (indent : Nat) (items : List (Item Tree))
    (finish : List Token) (b : Builder) : Builder × Bool :=
  let parent := b.stack.tail.headD default
  let returns := match parent with
    | .map _ outer _ last =>
      (t.is .valueMark && outer == indent) || (t.is .lineEnd && last.sep.isNone)
    | _ => false
  if returns then (b.close, true)
  else if t.is .valueMark && !parent.isFlow then
    let (parent, start) := parent.takeProps
    let key := Tree.flow opening indent (flowItems opening items).reverse (finish.take 1)
    let item : Item Tree := { start, key := some key, sep := some (finish.drop 1 ++ [t]) }
    ({ b with
      stack := .map opening.offset indent [] item :: parent :: b.stack.tail.tail
      keyLine := true }, false)
  else b.afterPart t (fun finish => .flow opening indent items finish) finish

/-- Brings a token to its place; `fuel` bounds the number of parts that are closed for it. -/
def settle : (fuel : Nat) → Token → Builder → Builder
  | 0, _, b => b
  | fuel + 1, t, b =>
    if t.is .documentEnd && !b.stack.head?.any Frame.isEnd then
      b.closeAll.enter (.documentEnd [])
    else
      let (b, again) := match b.stack.head? with
        | none => (b.atTop t, false)
        | some (.document d) => b.inDocument t d
        | some (.leaf token finish) => b.atLeaf t token finish
        | some (.block header _) => b.inBlock t header
        | some (.map offset indent earlier last) => b.inMap t offset indent earlier last
        | some (.seq offset indent earlier last) => b.inSeq t offset indent earlier last
        | some (.flow opening indent items finish) =>
          if t.is .flowBreak then (b.breakFlow b.stack.length, false)
          else if finish.isEmpty then b.inFlow t opening indent items
          else b.afterFlow t opening indent items finish
        | some (.documentEnd finish) =>
          if t.is .bareStart then (b, false)
          else
            let b := b.setTop (.documentEnd (finish ++ [t]))
            (if t.is .lineEnd then b.close else b, false)
      if again then settle fuel t b else b

def take (b : Builder) (l : Lexeme) : Builder :=
  let width := unitLength l.text
  let t : Token := { l with offset := b.offset, indent := b.indent }
  let pass (b : Builder) : Builder := { b with offset := b.offset + width }
  let settled (b : Builder) : Builder := settle (b.stack.length + 1) t b
  let deeper (b : Builder) : Builder := if b.fresh then { b with indent := b.indent + width } else b
  match l.kind with
  | .stray => pass (b.placeStray t)
  | .plain => pass (settled { b with fresh := false })
  | .lineEnd => pass { settled b with fresh := true, indent := 0 }
  | .blank => pass (if l.text.head? == some ' ' then deeper (settled b) else settled b)
  | .keyMark | .valueMark | .itemMark => pass (deeper (settled b))
  | .bareStart | .flowBreak => settled b
  | _ => pass { settled b with fresh := false }

end Builder

def partsOf (lexemes : List Lexeme) : List Part :=
  (lexemes.foldl Builder.take {}).closeAll.parts.reverse

end LintEngine.Yaml
