/-
Scalars in lines of their own below a `|` or `>`. A header tells whether lines are kept or folded, what
happens to the line ends at the end, and how far the text is indented.
-/
import LintEngine.Yaml.Fold

namespace LintEngine.Yaml

/-! ## Headers -/

/-- What happens to the line ends at the end of the text: all go, one stays, all stay. -/
inductive Chomping
  | strip | clip | keep
deriving DecidableEq, Repr

structure BlockHeader where
  folded : Bool
  chomping : Chomping := .clip
  /-- The columns from the parent's to the text's; zero if they are not given. -/
  indent : Nat := 0
  comment : String := ""

/-- The marks of a header: at most one for the line ends and one digit from 1 on, in any order. -/
def BlockHeader.mark? (h : BlockHeader) (c : Char) : Option BlockHeader :=
  if c == '-' && h.chomping == .clip then some { h with chomping := .strip }
  else if c == '+' && h.chomping == .clip then some { h with chomping := .keep }
  else if '1' ≤ c ∧ c ≤ '9' ∧ h.indent = 0 then some { h with indent := c.toNat - '0'.toNat }
  else none

/-- Takes what stands behind the marks in the header's line: nothing but a comment, with a blank before
it. -/
def BlockHeader.ofMargin? (spaced : Bool) (h : BlockHeader) : List Token → Option BlockHeader
  | [] => some h
  | t :: r =>
    match t.kind with
    | .blank => ofMargin? true h r
    | .lineEnd => ofMargin? spaced h r
    | .comment =>
      if spaced then ofMargin? spaced { h with comment := String.ofList t.text.tail } r else none
    | _ => none

def BlockHeader.ofTokens? : List Token → Option BlockHeader
  | [] => none
  | first :: margin => do
    let marks ← first.text.tail.foldlM mark? { folded := first.text.head? == some '>' }
    ofMargin? false marks margin

/-! ## Lines -/

/-- A line of a block scalar: the spaces it starts with, and what follows them. -/
structure BlockLine where
  spaces : Nat
  content : List Char

namespace BlockLine

def ofText (line : List Char) : BlockLine :=
  let spaces := leadingSpaces line
  ⟨spaces, line.drop spaces⟩

def isBlank (l : BlockLine) : Bool := l.content.isEmpty || l.content == ['\r']

/-- The line's text from a column on. -/
def textFrom (column : Nat) (l : BlockLine) : List Char :=
  List.replicate (l.spaces - column) ' ' ++ dropReturn l.content

end BlockLine

/-! ## Text -/

/-- Joins lines as they stand. -/
def joinKept (column : Nat) (lines : List BlockLine) : List Char :=
  ['\n'].intercalate (lines.map (·.textFrom column))

/-- Joins lines by folding: between two lines that start at the column a single line end is a space,
and of several the first goes away; around lines that start further right, or with a tab, all stay.
`sep` stands between the lines before and the next one, `deep` when the last was further right. -/
def joinFolded (column : Nat) (sep : List Char) (deep : Bool) : List BlockLine → List Char
  | [] => []
  | l :: r =>
    if column < l.spaces || l.content.head? == some '\t' then
      let sep := if sep == [' '] then ['\n']
        else if !deep && sep == ['\n'] then ['\n', '\n'] else sep
      sep ++ l.textFrom column ++ joinFolded column ['\n'] true r
    else if l.isBlank then
      if sep == ['\n'] then '\n' :: joinFolded column sep deep r
      else joinFolded column ['\n'] deep r
    else sep ++ dropReturn l.content ++ joinFolded column [' '] false r

/-- Separates the lines at the end of a list that a test accepts. -/
def splitEnd (p : BlockLine → Bool) (lines : List BlockLine) : List BlockLine × List BlockLine :=
  let n := (lines.reverse.takeWhile p).length
  lines.splitAt (lines.length - n)

/-- The column of a text in a collection of an indent: a header gives it, or else the first line that
is not blank. No blank line before that one reaches further, and only a whole document may start
at its left end. -/
def BlockHeader.column? (h : BlockHeader) (root : Bool) (indent : Nat) (opening : List BlockLine)
    (first : BlockLine) : Option Nat :=
  let least := indent + h.indent
  let widest := if h.indent = 0 then (opening.map BlockLine.spaces).foldl max least else least
  let column := if h.indent = 0 then first.spaces else least
  if first.spaces < widest || (column = 0 && !root) then none else some column

/-- The text of a block scalar. The blank lines at the start stay; those at the end count as text only
if they reach beyond the text's column. -/
def BlockHeader.text? (h : BlockHeader) (root : Bool) (indent : Nat) (source : List Char) :
    Option (List Char) :=
  let lines := if source.isEmpty then [] else (textLines source).map BlockLine.ofText
  let opening := lines.takeWhile BlockLine.isBlank
  match lines.drop opening.length with
  | [] =>
    if h.chomping = .keep ∧ !lines.isEmpty then
      some (List.replicate (max 1 (lines.length - 1)) '\n')
    else some []
  | first :: more => do
    let column ← h.column? root indent opening first
    let closing (l : BlockLine) : Bool := l.isBlank && l.spaces ≤ column
    let (body, ends) := splitEnd closing (first :: more)
    if body.any fun l => !l.isBlank && l.spaces < column then none
    let start := opening.flatMap fun l => List.replicate (l.spaces - column) ' ' ++ ['\n']
    let middle := if h.folded then joinFolded column [] false body else joinKept column body
    let finish := match h.chomping with
      | .strip => []
      | .clip => ['\n']
      | .keep => List.replicate (max 1 ends.length) '\n'
    return start ++ middle ++ finish

end LintEngine.Yaml
