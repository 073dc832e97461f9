/-
Writing texts between brackets: plain where that reads back as the same text, else quoted. A quoted
text takes the quotes that need no escapes. Long lines are broken at blanks.
-/
import LintEngine.Yaml.Scalar

namespace LintEngine.Yaml

/-! ## Long lines -/

/-- The greatest width of a line. -/
def lineWidth : Nat := 80

/-- The least width of a line's content. -/
def minContentWidth : Nat := 20

/-- The state of a search for the places to break a text: the places so far, the last one first, each
with whether a backslash is due there, the last place that could be one, the character before, and
the place from which on the line is too long; and where the last escape starts and ends. -/
structure Wrapping where
  folds : List (Nat × Bool) := []
  split : Option Nat := none
  previous : Option Char := none
  limit : Nat
  escape : Nat × Nat := (0, 0)

namespace Wrapping

/-- Whether a character is no blank and no line end. -/
def isSolid (c : Option Char) : Bool := c.any fun c => c != ' ' && c != '\t' && c != '\n'

/-- The place of the last character of an escape that starts at a place. -/
def escapeEnd (text : Array Char) (i : Nat) : Nat :=
  i + ((List.lookup (text[i + 1]?.getD ' ') [('x', 3), ('u', 5), ('U', 9)]).getD 1)

/-- The first place from one on before which there is no blank. -/
def passBlanks (text : Array Char) : (fuel : Nat) → Nat → Nat
  | 0, i => i
  | fuel + 1, i =>
    if 0 < i && (text[i - 1]?).any isBlankChar then passBlanks text fuel (i + 1) else i

/-- The places to break a text; `none` when an escape is wider than a line. `step` is the width of a
line with its indent, and `fuel` bounds the number of characters. -/
def search (text : Array Char) (indent step : Nat) (quoted : Bool) :
    (fuel : Nat) → Nat → Wrapping → Option (List (Nat × Bool))
  | 0, _, w => some w.folds.reverse
  | fuel + 1, i, w =>
    match text[i]? with
    | none => some w.folds.reverse
    | some c =>
      let escaped := quoted && c == '\\'
      let w := if escaped then { w with escape := (i, escapeEnd text i) } else w
      let i := if escaped then w.escape.2 else i
      if c == '\n' then
        search text indent step quoted fuel (i + 1)
          { w with limit := i + indent + step, split := none, previous := some c }
      else
        let w := if c == ' ' && isSolid w.previous && isSolid text[i + 1]? then
          { w with split := some i } else w
        if i < w.limit then search text indent step quoted fuel (i + 1) { w with previous := some c }
        else match w.split with
          | some place =>
            search text indent step quoted fuel (i + 1)
              { w with folds := (place, false) :: w.folds, limit := place + step, split := none
                       previous := some c }
          | none =>
            if !quoted then search text indent step quoted fuel (i + 1) { w with previous := some c }
            else
              let i := if w.previous.any isBlankChar then passBlanks text text.size i else i
              let fold := if w.escape.2 + 1 < i then i - 2 else w.escape.1 - 1
              if w.folds.contains (fold, true) then none
              else search text indent step quoted fuel (i + 1)
                { w with folds := (fold, true) :: w.folds, limit := fold + step, split := none
                         previous := text[i]? }

end Wrapping

/-- Breaks the lines of a text that are too long. `lead` is the number of characters that stand before
the text in its line. -/
def wrap (indent : Nat) (quoted : Bool) (lead : Option Nat) (text : String) : String :=
  let chars := text.toList.toArray
  let step := max (1 + minContentWidth) (1 + lineWidth - indent)
  let blank := '\n' :: List.replicate indent ' '
  if chars.size ≤ step then text
  else
    let far := lead.any (lineWidth - minContentWidth < ·)
    let start : Wrapping :=
      { folds := if far then [(0, false)] else []
        limit := if far then lineWidth - indent else lineWidth - lead.getD indent }
    match Wrapping.search chars indent step quoted chars.size 0 start with
    | none => text
    | some folds =>
      let ends := (folds.map Prod.fst).drop 1 ++ [chars.size]
      let part (a b : Nat) : List Char := (chars.toList.take b).drop a
      let first := part 0 ((folds.head?.map Prod.fst).getD chars.size)
      let rest := (folds.zip ends).flatMap fun ((fold, escaped), stop) =>
        if fold = 0 then blank ++ part 0 stop
        else (if escaped then [chars[fold]?.getD ' ', '\\'] else []) ++ blank ++ part (fold + 1) stop
      String.ofList (first ++ rest)

/-! ## Quotes -/

/-- A context between brackets: the indent of a line, the number of characters before the text in its
line, and whether the text is a key that has to stay on one line. -/
structure Context where
  indent : Nat := 0
  lead : Option Nat := none
  implicit : Bool := false

def hex4 (n : Nat) : List Char :=
  let digits := Nat.toDigits 16 n
  List.replicate (4 - digits.length) '0' ++ digits

/-- The letters that stand for some characters after a backslash. -/
def letterEscapes : List (Char × Char) :=
  [('"', '"'), ('\\', '\\'), ('\x08', 'b'), ('\x0c', 'f'), ('\n', 'n'), ('\r', 'r'), ('\t', 't'),
   ('\x00', '0'), ('\x07', 'a'), ('\x0b', 'v'), ('\x1b', 'e')]

/-- A character between double quotes. -/
def escapeChar (c : Char) : List Char :=
  match letterEscapes.lookup c with
  | some letter => ['\\', letter]
  | none => if c.toNat < 0x20 then '\\' :: 'x' :: (hex4 c.toNat).drop 2 else [c]

/-- A text's characters between double quotes, when the text so far is no more than blanks and its
line ends are written as such. Of several line ends, one more is written than there are. A blank
around a line end is escaped. -/
def escapeLines (indent : Nat) : (fuel : Nat) → List Char → List Char
  | 0, _ => []
  | fuel + 1, text =>
    match text with
    | [] => []
    | ' ' :: '\n' :: r => '\\' :: ' ' :: escapeLines indent fuel ('\n' :: r)
    | '\n' :: r =>
      let more := r.takeWhile (· == '\n')
      let rest := r.drop more.length
      if rest.isEmpty then
        -- The last line end cannot be written as such.
        match more with
        | [] => ['\\', 'n']
        | _ :: _ =>
          List.replicate (more.length + 1) '\n' ++ List.replicate indent ' ' ++ ['\\', 'n']
      else
        List.replicate (more.length + 2) '\n' ++ List.replicate indent ' ' ++
          (if rest.head? == some ' ' then ['\\'] else []) ++ escapeLines indent fuel rest
    | c :: r => escapeChar c ++ escapeLines indent fuel r

/-- A text's characters between double quotes on one line. A blank before a line end is escaped. -/
def escapeLine : List Char → List Char
  | ' ' :: '\n' :: r => '\\' :: ' ' :: '\\' :: 'n' :: escapeLine r
  | c :: r => escapeChar c ++ escapeLine r
  | [] => []

/-- The least length of a quoted text whose line ends are written as such. -/
def minMultiline : Nat := 40

/-- The length of a text between double quotes with letters and codes for all escapes. -/
def escapedLength (text : String) : Nat :=
  let length (c : Char) : Nat :=
    if c.toNat < 0x20 && !"\x08\x0c\n\r\t".contains c then 6 else unitLength (escapeChar c)
  text.toList.foldl (fun n c => n + length c) 2

def doubleQuote (c : Context) (text : String) : String :=
  let oneLine := c.implicit || escapedLength text < minMultiline
  let inner := if oneLine then escapeLine text.toList
    else escapeLines c.indent text.length text.toList
  let quoted := String.ofList ('"' :: inner ++ ['"'])
  if c.implicit then quoted else wrap c.indent true c.lead quoted

/-- A text with one more line end in each run of them, and an indent behind it. -/
def doubleLineEnds (indent : Nat) : List Char → List Char
  | '\n' :: r =>
    if r.head? == some '\n' then '\n' :: doubleLineEnds indent r
    else '\n' :: '\n' :: List.replicate indent ' ' ++ doubleLineEnds indent r
  | c :: r => c :: doubleLineEnds indent r
  | [] => []

/-- Whether a blank stands next to a line end. -/
def hasBlankLineEnd : List Char → Bool
  | a :: b :: r =>
    (isBlankChar a && b == '\n') || (a == '\n' && isBlankChar b) || hasBlankLineEnd (b :: r)
  | _ => false

/-- A text in single quotes, unless these cannot hold it. -/
def singleQuote (c : Context) (text : String) : String :=
  let cs := text.toList
  if (c.implicit && cs.contains '\n') || hasBlankLineEnd cs then doubleQuote c text
  else
    let inner := doubleLineEnds c.indent (cs.flatMap fun x => if x == '\'' then [x, x] else [x])
    let quoted := String.ofList ('\'' :: inner ++ ['\''])
    if c.implicit then quoted else wrap c.indent false c.lead quoted

/-- A text in quotes: in single ones if it has double ones and no single ones. -/
def quote (c : Context) (text : String) : String :=
  if text.contains '"' && !text.contains '\'' then singleQuote c text else doubleQuote c text

/-! ## Plain texts -/

/-- Whether two characters in a row would not read back as part of a plain text. -/
def hasPlainMark : List Char → Bool
  | a :: b :: r =>
    ((a == '\n' || a == ':') && isBlankChar b) || (isBlankChar a && b == '\n') ||
      ((a == '\n' || isBlankChar a) && b == '#') || hasPlainMark (b :: r)
  | _ => false

/-- Whether a text cannot be written without quotes between brackets. -/
def needsQuotes (text : List Char) : Bool :=
  text.any (fun c => isFlowMark c && c != ',') || text.contains ',' ||
    text.head?.any (fun c => "\n\t #&*!|>'\"%@\x60".contains c) ||
    (text.head?.any (fun c => c == '?' || c == '-') && text.tail.head?.all isBlankChar) ||
    hasPlainMark text || text.getLast?.any fun c => "\n\t :-".contains c

/-- Whether a plain scalar would be read as something else than a text. -/
def isOtherKind (text : String) : Bool :=
  Scalar.plainKinds.any fun kind => (Scalar.ofKind? kind .plain text).isSome

/-- A text without quotes, unless it needs them. With `typed`, one that would be read as something else
needs them too. -/
def plainOrQuote (typed : Bool) (c : Context) (text : String) : String :=
  let cs := text.toList
  let spelled := String.ofList (doubleLineEnds c.indent cs)
  if (c.implicit && cs.contains '\n') || needsQuotes cs || (typed && isOtherKind spelled) then
    quote c text
  else if c.implicit then spelled
  else wrap c.indent false c.lead spelled

/-- Whether a character can only be written between double quotes. -/
def isControl (c : Char) : Bool :=
  (c.toNat < 0x20 && c != '\t' && c != '\n') || (0x7F ≤ c.toNat && c.toNat < 0xA0)

def spellText (typed : Bool) (style : Style) (c : Context) (text : String) : String :=
  if text.any isControl then doubleQuote c text
  else match style with
    | .plain => plainOrQuote typed c text
    | .singleQuoted => singleQuote c text
    | .doubleQuoted => doubleQuote c text
    | .block => quote c text

end LintEngine.Yaml
