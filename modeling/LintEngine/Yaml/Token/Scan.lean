/-
Cutting a text into tokens. The scanner knows whether it is between documents, at the start of a block
collection, in other content or between brackets, how many brackets are open, and the least number of
spaces with which a line can go on with what the lines before it began.
-/
import LintEngine.Yaml.Token

namespace LintEngine.Yaml

/-! ## Lines -/

/-- Whether a text starts with a mark between documents. -/
def atMark (mark : String) (text : List Char) : Bool :=
  text.take 3 == mark.toList && atBreak (text.drop 3)

/-- The number of spaces that a text starts with. -/
def leadingSpaces (text : List Char) : Nat := (text.takeWhile (· == ' ')).length

/-- The number of blanks that a text starts with. -/
def leadingBlanks (text : List Char) : Nat := (text.takeWhile isBlankChar).length

/-- The length of the line end that a text starts with. -/
def lineEndLength : List Char → Nat
  | '\n' :: _ => 1
  | '\r' :: '\n' :: _ => 2
  | _ => 0

/-- The length of a text's first line, without its line end. -/
def lineLength : List Char → Nat
  | [] => 0
  | c :: r => if lineEndLength (c :: r) = 0 then 1 + lineLength r else 0

/-- The text after its first line. -/
def afterLine (text : List Char) : List Char :=
  let rest := text.drop (lineLength text)
  rest.drop (lineEndLength rest)

/-- Whether the first line of a text can go on with a scalar: it holds nothing but spaces, or starts
with at least so many of them. Where no spaces are needed, it is no mark between documents. -/
def continues (least : Nat) (text : List Char) : Bool :=
  if least = 0 then !atMark "---" text && !atMark "..." text
  else
    let spaces := leadingSpaces text
    least ≤ spaces || 0 < lineEndLength (text.drop spaces)

/-! ## Scalars -/

/-- The length of the plain scalar that a text starts with, when so many characters have passed since
its last one that is no blank. -/
def plainLength (flow : Bool) (least passed : Nat) : List Char → Nat
  | [] => 0
  | c :: r =>
    let next := r.head?
    let closing := flow && next.any isFlowMark
    if c == ':' then
      if atBreak r || closing then 0 else passed + 1 + plainLength flow least 0 r
    else if c == '\n' then
      if next == some '#' || closing || !continues least r then 0
      else plainLength flow least (passed + 1) r
    else if c == '\r' && next != some '\n' then
      passed + 1 + if next == some '#' || closing then 0 else plainLength flow least 0 r
    else if isBreakChar c then
      if next == some '#' || closing then 0 else plainLength flow least (passed + 1) r
    else if flow && isFlowMark c then 0
    else passed + 1 + plainLength flow least 0 r

/-- The number of characters up to and with a closing single quote, which is not written twice. -/
def singleQuotedLength : List Char → Option Nat
  | [] => none
  | '\'' :: '\'' :: r => (singleQuotedLength r).map (· + 2)
  | '\'' :: _ => some 1
  | _ :: r => (singleQuotedLength r).map (· + 1)

/-- The number of characters up to and with a closing double quote, which no backslash escapes. -/
def doubleQuotedLength : List Char → Option Nat
  | [] => none
  | '\\' :: _ :: r => (doubleQuotedLength r).map (· + 2)
  | '"' :: _ => some 1
  | _ :: r => (doubleQuotedLength r).map (· + 1)

/-- The number of characters before the first line end behind which a scalar cannot go on; `none` if
it can everywhere within so many characters. -/
def breakLength (least : Nat) : (within : Nat) → List Char → Option Nat
  | 0, _ | _, [] => none
  | within + 1, c :: r =>
    let n := lineEndLength (c :: r)
    if 0 < n && !continues least ((c :: r).drop n) then some 0
    else (breakLength least within r).map (· + 1)

/-- The length of the quoted scalar that a text starts with. One without a closing quote takes the
whole text, and one with a line that cannot go on ends before that line. -/
def quotedLength (least : Nat) (text : List Char) : Nat :=
  let close := if text.head? == some '"' then doubleQuotedLength text.tail
    else singleQuotedLength text.tail
  match close with
  | none => text.length
  | some n => (breakLength least n text).getD (n + 1)

/-! ## Block scalars -/

/-- The length of the lines of spaces that a text starts with. -/
def blankLinesLength : (fuel : Nat) → List Char → Nat
  | 0, _ => 0
  | fuel + 1, text =>
    let spaces := leadingSpaces text
    let n := lineEndLength (text.drop spaces)
    if n = 0 then 0 else spaces + n + blankLinesLength fuel (text.drop (spaces + n))

/-- The length of the lines that a text starts with as long as they go on. -/
def continuedLength (least : Nat) : (fuel : Nat) → List Char → Nat
  | 0, _ => 0
  | fuel + 1, text =>
    let n := text.length - (afterLine text).length
    if n = 0 || !continues least text then 0
    else n + continuedLength least fuel (afterLine text)

/-- The lines of a text, with their ends; `fuel` bounds their number. -/
def fullLines : (fuel : Nat) → List Char → List (List Char)
  | 0, _ => []
  | fuel + 1, text =>
    let n := text.length - (afterLine text).length
    if n = 0 then [] else text.take n :: fullLines fuel (text.drop n)

/-- Whether a line holds nothing but so many spaces or less. -/
def isShortBlank (width : Nat) (line : List Char) : Bool :=
  let rest := line.drop (leadingSpaces line)
  leadingSpaces line ≤ width && (rest.length == lineEndLength rest || rest == ['\r'])

/-- The length of a text without the short blank lines at its end; its first line stays. -/
def trimmedLength (width : Nat) (text : List Char) : Nat :=
  match fullLines text.length text with
  | [] => 0
  | first :: more =>
    let kept := (more.reverse.dropWhile (isShortBlank width)).reverse
    kept.foldl (fun n line => n + line.length) first.length

/-- What a block scalar's header says to the scanner: whether all line ends at the end are kept, and
the last digit. -/
structure BlockMarks where
  keep : Bool
  digit : Option Nat

/-- The marks in a header, which follow its first character. -/
def BlockMarks.ofText (text : List Char) : BlockMarks :=
  let marks := text.takeWhile fun c => c == '+' || c == '-' || ('1' ≤ c && c ≤ '9')
  { keep := marks.contains '+'
    digit := (marks.filter Char.isDigit).getLast?.map fun c => c.toNat - '0'.toNat }

/-- The least indent after a block scalar, and its length. Its first line that is not blank tells its
indent, unless the header does. Lines of tabs that follow it count as text, which they cannot be. -/
def blockLength (least : Nat) (marks : BlockMarks) (text : List Char) : Nat × Nat :=
  let opening := blankLinesLength text.length text
  let body := text.drop opening
  let width := leadingSpaces body
  let inside := least ≤ width
  let least := if !inside then least
    else match marks.digit with
      | none => width
      | some n => n - 1 + max least 1
  let length := opening + if inside then continuedLength least body.length body else 0
  let rest := text.drop length
  let margin := leadingSpaces rest
  if (rest.drop margin).head? == some '\t' then
    (least, length + (rest.takeWhile isBreakChar).length)
  else if marks.keep then (least, length)
  else (least, trimmedLength width (text.take length))

/-! ## Tags -/

/-- The characters of a tag. -/
def isTagChar (c : Char) : Bool := c.isAlphanum || "-#;/?:@&=+$_.!~*'()".contains c

def isHexDigit (c : Char) : Bool :=
  c.isDigit || ('a' ≤ c && c ≤ 'f') || ('A' ≤ c && c ≤ 'F')

/-- The length of the tag characters that a text starts with; a percent sign has two digits behind
it. -/
def tagCharsLength : List Char → Nat
  | '%' :: a :: b :: r => if isHexDigit a && isHexDigit b then 3 + tagCharsLength r else 0
  | c :: r => if isTagChar c then 1 + tagCharsLength r else 0
  | [] => 0

/-- The length of the tag that a text starts with. -/
def tagLength : List Char → Nat
  | '!' :: '<' :: r =>
    let n := (r.takeWhile fun c => !isBreakChar c && c != '>').length
    2 + n + if (r.drop n).head? == some '>' then 1 else 0
  | text => 1 + tagCharsLength text.tail

/-- The length of the anchor or alias that a text starts with. -/
def nameLength (text : List Char) : Nat := (text.takeWhile (!endsName ·)).length

/-! ## Scanners -/

/-- Where a scanner is. -/
inductive Mode
  | outside | blockStart | content | flow
deriving DecidableEq, Repr

/-- A scanner at a place: what is left of the text, the least indent of a line that goes on, the
column of what the line holds, the number of open brackets, whether a key with an end of its own has
just passed, and the tokens so far, the last one first. -/
structure Scanner where
  rest : List Char
  least : Nat := 0
  column : Nat := 0
  depth : Nat := 0
  afterKey : Bool := false
  found : List Lexeme := []

namespace Scanner

def cutAs (kind : Kind) (n : Nat) (s : Scanner) : Scanner :=
  { s with found := ⟨kind, s.rest.take n⟩ :: s.found, rest := s.rest.drop n }

/-- Cuts off a token, if it has any characters. -/
def cut (n : Nat) (s : Scanner) : Scanner :=
  if n = 0 then s else s.cutAs (.ofText (s.rest.take n)) n

def cutBlanks (s : Scanner) : Scanner := s.cut (leadingBlanks s.rest)

def cutLineEnd (s : Scanner) : Scanner := s.cut (lineEndLength s.rest)

def cutLine (s : Scanner) : Scanner := (s.cut (lineLength s.rest)).cutLineEnd

def line (s : Scanner) : List Char := s.rest.take (lineLength s.rest)

/-- The mode that follows a token. -/
def mode (s : Scanner) : Mode := if s.depth = 0 then .content else .flow

/-- Cuts off the marks of block collections that start a line, one after the other. -/
def blockStart (s : Scanner) : Mode × Scanner :=
  match s.rest with
  | c :: r =>
    if (c == '-' || c == '?' || c == ':') && atBreak r then
      let width := 1 + leadingBlanks r
      (.blockStart, { (s.cut 1).cutBlanks with least := s.column + 1, column := s.column + width })
    else (.content, s)
  | [] => (.content, s)

/-- Cuts off the spaces or the mark between documents that a line starts with. -/
def lineStart (s : Scanner) : Mode × Scanner :=
  if atMark "---" s.rest then (.content, { s.cut 3 with least := 0, column := 0 })
  else if atMark "..." s.rest then (.outside, { s.cut 3 with least := 0, column := 0 })
  else
    let column := leadingSpaces s.rest
    let s := { s.cut column with column }
    let least := if column < s.least && !atBreak (s.rest.drop 1) then column else s.least
    { s with least }.blockStart

/-- Cuts off the tags, anchors and marks that come next in the line. -/
def properties : (fuel : Nat) → Scanner → Scanner
  | 0, s => s
  | fuel + 1, s =>
    match s.rest with
    | '!' :: _ => properties fuel (s.cut (tagLength s.rest)).cutBlanks
    | '&' :: _ => properties fuel (s.cut (nameLength s.rest)).cutBlanks
    | c :: r =>
      if (c == '-' || c == '?' || c == ':') &&
          (atBreak r || (0 < s.depth && r.head?.any isFlowMark)) then
        let t := (s.cut 1).cutBlanks
        properties fuel
          (if s.depth = 0 then { t with least := s.column + 1 } else { t with afterKey := false })
      else s
    | [] => s

def plain (s : Scanner) : Mode × Scanner :=
  (s.mode, s.cutAs .plain (plainLength (0 < s.depth) s.least 0 s.rest))

def quoted (s : Scanner) : Mode × Scanner := (s.mode, s.cut (quotedLength s.least s.rest))

/-- Cuts off a block scalar: its header, what else is in that line, and its text. -/
def block (s : Scanner) : Mode × Scanner :=
  let marks := BlockMarks.ofText s.rest.tail
  let header := (s.rest.takeWhile fun c => !isBreakChar c && c != '#').length
  let t := (s.cut header).cutBlanks.cutLine
  let (least, length) := blockLength t.least marks t.rest
  { t.cutAs .plain length with least }.lineStart

/-- Cuts off the next token of a line in block layout. -/
def content (s : Scanner) : Mode × Scanner :=
  let s := s.cutBlanks
  let s := properties (lineLength s.rest) s
  match s.line with
  | [] | '#' :: _ => s.cutLine.lineStart
  | '\x7b' :: _ | '[' :: _ => (.flow, { s.cut 1 with afterKey := false, depth := 1 })
  | '\x7d' :: _ | ']' :: _ => (.content, s.cut 1)
  | '*' :: _ => (.content, s.cut (nameLength s.rest))
  | '"' :: _ | '\'' :: _ => s.quoted
  | '|' :: _ | '>' :: _ => s.block
  | _ => s.plain

/-- Cuts off the blanks and line ends between brackets, and tells the indent of the last line that
started. -/
def flowGap : (fuel : Nat) → Option Nat → Scanner → Option Nat × Scanner
  | 0, indent, s => (indent, s)
  | fuel + 1, indent, s =>
    if 0 < lineEndLength s.rest then
      let t := s.cutLineEnd
      let column := leadingSpaces t.rest
      flowGap fuel (some column) { t.cut column with column }.cutBlanks
    else if 0 < leadingBlanks s.rest then flowGap fuel indent s.cutBlanks
    else (indent, s)

/-- Cuts off commas, and the blanks after them. -/
def commas : (fuel : Nat) → Scanner → Scanner
  | 0, s => s
  | fuel + 1, s =>
    if s.rest.head? == some ',' then
      commas fuel { (s.cut 1).cutBlanks with afterKey := false }
    else s

/-- Whether a line between brackets starts too far left. The bracket that closes the outermost pair
may stand where the collection around it starts. -/
def breaksFlow (indent : Option Nat) (s : Scanner) : Bool :=
  let first := s.rest.head?
  match indent with
  | none => false
  | some n =>
    let left := (n < s.least && s.line.head? != some '#') ||
      (n == 0 && (atMark "---" s.rest || atMark "..." s.rest))
    let closes := n + 1 == s.least && s.depth == 1 && (first == some ']' || first == some '\x7d')
    left && !closes

/-- Cuts off the next token between brackets. -/
def flow (s : Scanner) : Mode × Scanner :=
  let (indent, s) := flowGap (s.rest.takeWhile isBreakChar).length none s
  if s.breaksFlow indent then ({ s with depth := 0 }.cutAs .flowBreak 0).lineStart
  else
    let s := commas (lineLength s.rest) s
    let s := properties (lineLength s.rest) s
    match s.line with
    | [] => (.flow, s)
    | '#' :: _ => (.flow, s.cut (lineLength s.rest))
    | '\x7b' :: _ | '[' :: _ => (.flow, { s.cut 1 with afterKey := false, depth := s.depth + 1 })
    | '\x7d' :: _ | ']' :: _ =>
      let s := { s.cut 1 with afterKey := true, depth := s.depth - 1 }
      (s.mode, s)
    | '*' :: _ => (.flow, s.cut (nameLength s.rest))
    | '"' :: _ | '\'' :: _ => { s with afterKey := true }.quoted
    | ':' :: _ =>
      let next := s.rest.tail
      if s.afterKey || atBreak next || next.head? == some ',' then
        (.flow, { (s.cut 1).cutBlanks with afterKey := false })
      else { s with afterKey := false }.plain
    | _ => { s with afterKey := false }.plain

/-- The length of a directive in a line, without the comment and the blanks after it. -/
def directiveLength (text : List Char) : Nat :=
  let isComment (i : Nat) : Bool := text[i]? == some '#' && (text[i - 1]?).any isBlankChar
  let whole := match (List.range text.length).find? isComment with
    | some i => text.take i
    | none => text
  (whole.reverse.dropWhile isBlankChar).length

/-- Cuts off a line between documents, unless a document starts with it. -/
def outside (s : Scanner) : Mode × Scanner :=
  let s := if s.rest.head? == some byteOrderMark then s.cut 1 else s
  let after := s.rest.drop (leadingBlanks s.rest)
  if s.rest.head? == some '%' then
    (.outside, (s.cut (directiveLength s.line)).cutBlanks.cutLine)
  else if after.isEmpty || after.head? == some '#' || 0 < lineEndLength after then
    (.outside, s.cutBlanks.cutLine)
  else (s.cutAs .bareStart 0).lineStart

/-- The scanner at the end of the text; `fuel` bounds the number of steps. -/
def run : (fuel : Nat) → Mode → Scanner → Scanner
  | 0, _, s => s
  | fuel + 1, mode, s =>
    if s.rest.isEmpty then s
    else
      let (mode, s) := match mode with
        | .outside => s.outside
        | .blockStart => s.blockStart
        | .content => s.content
        | .flow => s.flow
      run fuel mode s

end Scanner

/-- The tokens of a text. No two steps in a row leave the scanner where it is. -/
def lexemesOf (text : List Char) : List Lexeme :=
  (Scanner.run (3 * text.length + 3) .outside { rest := text }).found.reverse

end LintEngine.Yaml
