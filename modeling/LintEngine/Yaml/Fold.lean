/-
The texts of plain and quoted scalars that may run over several lines. Blanks around a line end go
away, a single line end is a space, and of several in a row the first goes away. A character that was
escaped stays as it is.
-/
import LintEngine.Yaml.Token.Scan

namespace LintEngine.Yaml

/-! ## Lines -/

/-- Removes the blanks that a text starts with. -/
def dropBlanks (text : List Char) : List Char := text.dropWhile isBlankChar

/-- Removes the blanks that a text ends with. -/
def dropEndBlanks (text : List Char) : List Char := (text.reverse.dropWhile isBlankChar).reverse

/-- The lines of a text, without their ends. -/
def textLines (text : List Char) : List (List Char) :=
  ((String.ofList text).splitOn "\n").map fun line => line.toList

/-- Removes the carriage return that a line ends with. -/
def dropReturn (line : List Char) : List Char :=
  if line.getLast? == some '\r' then line.dropLast else line

/-- Joins lines that follow others: `sep` stands for the line ends passed so far. The last line keeps
the blanks at its end. -/
def joinLines (sep : Char) : List (List Char) → List Char
  | [] => []
  | [last] => sep :: dropBlanks last
  | line :: r =>
    match dropBlanks (dropEndBlanks (dropReturn line)) with
    | [] => if sep == '\n' then '\n' :: joinLines '\n' r else joinLines '\n' r
    | text => sep :: text ++ joinLines ' ' r

def foldLines (text : List Char) : List Char :=
  match textLines text with
  | first :: second :: r => dropEndBlanks (dropReturn first) ++ joinLines ' ' (second :: r)
  | _ => text

/-! ## Plain and single-quoted scalars -/

/-- Whether no plain scalar can start with a character. -/
def isReserved (c : Char) : Bool := "\t,%|>@\x60".contains c

def plainText? (source : List Char) : Option String :=
  if source.head?.any isReserved then none else some (String.ofList (foldLines source))

/-- A text without the second one of two quotes in a row. -/
def singleQuotes : List Char → List Char
  | '\'' :: '\'' :: r => '\'' :: singleQuotes r
  | c :: r => c :: singleQuotes r
  | [] => []

/-- The text between single quotes. -/
def singleQuotedText? (source : List Char) : Option String :=
  if source.length < 2 || source.getLast? != some '\'' then none
  else some (String.ofList (singleQuotes (foldLines source.tail.dropLast)))

/-! ## Double-quoted scalars -/

/-- The codes that single letters stand for after a backslash. -/
def escapes : List (Char × Nat) :=
  [('0', 0), ('a', 7), ('b', 8), ('e', 0x1B), ('f', 0xC), ('n', 0xA), ('r', 0xD), ('t', 9), ('v', 0xB),
   ('N', 0x85), ('_', 0xA0), ('L', 0x2028), ('P', 0x2029), (' ', 0x20), ('"', 0x22), ('/', 0x2F),
   ('\\', 0x5C), ('\t', 9)]

/-- The number of digits of the codes that letters announce. -/
def escapeLengths : List (Char × Nat) := [('x', 2), ('u', 4), ('U', 8)]

/-- The number that digits of a base spell; `none` unless there are digits and nothing else. -/
def digits? (base : Nat) (cs : List Char) : Option Nat :=
  let value (c : Char) : Nat :=
    if c.isDigit then c.toNat - '0'.toNat
    else if 'a' ≤ c ∧ c ≤ 'f' then c.toNat - 'a'.toNat + 10
    else if 'A' ≤ c ∧ c ≤ 'F' then c.toNat - 'A'.toNat + 10
    else base
  if cs.isEmpty || cs.any (base ≤ value ·) then none
  else some (cs.foldl (fun n c => base * n + value c) 0)

/-- The number of line ends among the blanks and line ends that a text starts with, and what follows
them. -/
def passLineEnds : List Char → Nat × List Char
  | '\r' :: '\n' :: r | '\n' :: r => let (n, s) := passLineEnds r; (n + 1, s)
  | c :: r => if isBlankChar c then passLineEnds r else (0, c :: r)
  | [] => (0, [])

/-- The codes of a text between double quotes, up to the closing one, which comes last; `fuel` bounds
the number of steps. -/
def doubleQuotedCodes : (fuel : Nat) → List Char → Option (List Nat)
  | 0, _ | _, [] | _, [_] => some []
  | fuel + 1, c :: d :: r =>
    let rest := d :: r
    let add (codes : List Nat) (rest : List Char) : Option (List Nat) :=
      (doubleQuotedCodes fuel rest).map (codes ++ ·)
    if c == '\\' then
      match escapes.lookup d, escapeLengths.lookup d with
      | some code, _ => add [code] r
      | none, some n => do
        let code ← if (r.take n).length = n then digits? 16 (r.take n) else none
        if code ≤ 0x10FFFF then add [code] (r.drop n) else none
      | none, none =>
        let n := lineEndLength rest
        if n = 0 then none else add [] (dropBlanks (rest.drop n))
    else if 0 < lineEndLength (c :: rest) then
      let (n, s) := passLineEnds ((c :: rest).drop (lineEndLength (c :: rest)))
      add (if n = 0 then [' '.toNat] else List.replicate n '\n'.toNat) s
    else if isBlankChar c then
      let blanks := (c :: rest).takeWhile isBlankChar
      let s := (c :: rest).drop blanks.length
      add (if 0 < lineEndLength s then [] else blanks.map Char.toNat) s
    else add [c.toNat] rest

/-- The character of a pair of surrogates. -/
def pairUp (high low : Nat) : Char :=
  Char.ofNat (0x10000 + (high - 0xD800) * 0x400 + (low - 0xDC00))

/-- The characters of a list of codes; a lone surrogate is replaced. -/
def ofCodes : List Nat → List Char
  | [] => []
  | high :: r =>
    if 0xD800 ≤ high ∧ high < 0xE000 then
      match r with
      | low :: s =>
        if high < 0xDC00 ∧ 0xDC00 ≤ low ∧ low < 0xE000 then pairUp high low :: ofCodes s
        else '\ufffd' :: ofCodes (low :: s)
      | [] => ['\ufffd']
    else Char.ofNat high :: ofCodes r

/-- The text between double quotes. -/
def doubleQuotedText? (source : List Char) : Option String := do
  if source.length < 2 || source.getLast? != some '"' then none
  let codes ← doubleQuotedCodes source.length source.tail
  return String.ofList (ofCodes codes)

end LintEngine.Yaml
