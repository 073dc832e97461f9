/-
Reading documents. A text holds at most one document: directives and comments may stand before it, a
line of three hyphens may open it and is needed after directives, and a line of three points may close
it. A text without a document stands for nothing.
-/
import LintEngine.Yaml.Node.OfTree
import LintEngine.Yaml.Node.Value
import LintEngine.Yaml.Tree.Build

namespace LintEngine.Yaml

/-- The node of a document; `none` when it is malformed. -/
def Document.node? (d : Directives) (x : Document) : Option Node := do
  let before ← Properties.read?
    { mark := .documentStart, indent := 0, fresh := true, next := .of x.value (x.finish.getD []) }
    x.offset x.start
  if before.mark.isSome && x.value.any Tree.isBlockCollection && !before.newline then none
  let (node, _) ← match x.value with
    | some t => nodeOf? d true before t
    | none => emptyNode? d before x.start
  let _ ← finishComment? false false "" "" (x.finish.getD [])
  return node

/-- What has been read of a text: the directives in force, whether some wait for a document, and the
document's node with the directives that were in force there. -/
structure Reading where
  directives : Directives := {}
  waiting : Bool := false
  node : Option (Directives × Node) := none

def Reading.take? (r : Reading) : Part → Option Reading
  | .stray => none
  | .directive line => do
    return { r with directives := ← r.directives.add? line, waiting := true }
  | .document x => do
    let node ← x.node? r.directives
    if r.node.isSome || (r.waiting && !hasKind .documentStart x.start) then none
    return { r with waiting := false, node := some (r.directives, node) }
  | .documentEnd finish => do
    if r.node.isNone then none
    let _ ← finishComment? true false "" "" finish
    return r

/-- The node of the document in a text, with its directives. -/
def nodeIn? (text : String) : Option (Directives × Node) := do
  let parts := partsOf (lexemesOf text.toList)
  let r ← parts.foldlM Reading.take? {}
  if r.node.isNone && r.waiting then none
  return r.node.getD ({}, .absent)

def read (text : String) : Except Fault Value :=
  match nodeIn? text with
  | some (d, node) => node.value d
  | none => .error .document

end LintEngine.Yaml
