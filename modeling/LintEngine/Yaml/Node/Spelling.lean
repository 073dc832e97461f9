/-
The spelling of a collection in brackets, which is the key that it is in an object. Tags, anchors,
comments, quotes and the forms of numbers are kept; blanks and line ends are not. A collection that is
too wide for a line, or has a comment, takes a line for each item.
-/
import LintEngine.Number.Shortest
import LintEngine.Yaml.Node
import LintEngine.Yaml.Quote

namespace LintEngine

/-! ## Numbers -/

namespace Binary64

/-- The shortest decimal of a number with an exponent: one digit before the point. -/
def scientific : Binary64 → String
  | .finite negative m e =>
    if m = 0 then "0e+0"
    else
      (if negative then "-" else "") ++ ({ positionalMax := 0, leadingZeros := 0 } : Layout).write
        (shortest m e)
  | n => n.text

/-- The natural number that a number is. -/
def toNat? : Binary64 → Option Nat
  | .finite negative m e =>
    if negative && m != 0 then none
    else if 0 ≤ e then some (m * Nat.pow 2 e.toNat)
    else if m % Nat.pow 2 (-e).toNat = 0 then some (m / Nat.pow 2 (-e).toNat)
    else none
  | _ => none

end Binary64

namespace Yaml

/-- The number of a base's digits with a mark in front. -/
def spellDigits (base : Nat) (mark : String) (n : Nat) : String :=
  mark ++ String.ofList (Nat.toDigits base n)

/-- A decimal text with at least so many places. -/
def padPlaces (places : Nat) (text : String) : String :=
  let cs := text.toList
  let whole := cs.takeWhile (· != '.')
  let fraction := cs.drop (whole.length + 1)
  if places = 0 || cs.contains 'e' then text
  else String.ofList (whole ++ '.' :: fraction ++ List.replicate (places - fraction.length) '0')

def spellDecimal (places : Nat) (n : Binary64) : String :=
  match n with
  | .nan => ".nan"
  | .infinite negative => if negative then "-.inf" else ".inf"
  | .finite negative _ _ =>
    if n.isZero && negative then padPlaces places "-0" else padPlaces places n.text

def spellNumber (form : NumberForm) (places : Nat) (n : Binary64) : String :=
  let inBase (base : Nat) (mark : String) : String :=
    (n.toNat?.map (spellDigits base mark)).getD (spellDecimal 0 n)
  match form, n with
  | .octal, _ => inBase 8 "0o"
  | .hexadecimal, _ => inBase 16 "0x"
  | .exponential, .finite .. => n.scientific
  | .exponential, _ => spellDecimal 0 n
  | .decimal, _ => spellDecimal places n

/-- The number that a text is taken for where a number is due. -/
def numberOfText (text : String) : Binary64 :=
  let trimmed := Text.trim text
  if trimmed = "" then .ofNat 0
  else if trimmed = "Infinity" || trimmed = "+Infinity" then .infinite false
  else if trimmed = "-Infinity" then .infinite true
  else match (integer? trimmed.toList).or (fraction? trimmed.toList) with
    | some n => n.value
    | none => .nan

/-- A text under the tag of a number. -/
def spellAsNumber (text : String) : String :=
  match numberOfText text with
  | .finite .. => String.ofList ('"' :: escapeLine text.toList ++ ['"'])
  | n => spellDecimal 0 n

/-! ## Scalars -/

/-- The spelling of a scalar under a tag. -/
def Scalar.spell (c : Context) (tag : String) (s : Scalar) : String :=
  if tag = Tag.null then if isNull s.source then s.source else "null"
  else if tag = Tag.bool then
    match s.value with
    | .bool _ => s.source
    | _ => if s.source = "" then "false" else "true"
  else match s.value with
    | .null => if isNull s.source then s.source else "null"
    | .bool b => if (truth? s.source).isSome then s.source else if b then "true" else "false"
    | .number n => spellNumber s.form s.places n
    | .text text =>
      if tag = Tag.integer || tag = Tag.float then spellAsNumber text
      else spellText (tag != Tag.seq && tag != Tag.map) s.style c text
    | _ => ""

def Marks.spell (d : Directives) (m : Marks) : String :=
  let anchor := m.anchor.toList.map fun a => "&" ++ a.name
  let tag := if m.tag = "" then [] else [d.spellTag m.tag]
  " ".intercalate (anchor ++ tag)

/-! ## Comments -/

/-- Puts a mark in front of a comment's lines; a line that is one blank goes away. -/
def spellComment (comment : String) : String :=
  "\n".intercalate ((comment.splitOn "\n").map fun line =>
    if line = "" then "" else if line = " " then "#" else "#" ++ line)

def blanks (n : Nat) : String := String.ofList (List.replicate n ' ')

def indentComment (indent : Nat) (comment : String) : String :=
  if comment.all (· == '\n') then (comment.drop 1).copy
  else
    "\n".intercalate ((comment.splitOn "\n").map fun line =>
      if line.all (· == ' ') then line else blanks indent ++ line)

def commentBehind (indent : Nat) (text comment : String) : String :=
  let spelled := spellComment comment
  if text.endsWith "\n" then indentComment indent spelled
  else if spelled.contains '\n' then "\n" ++ indentComment indent spelled
  else (if text.endsWith " " then "" else " ") ++ spelled

def linesBefore (indent : Nat) (m : Marks) : List String :=
  let comment := indentComment indent (spellComment m.before)
  (if m.gap then [""] else []) ++
    if m.before = "" then [] else [String.ofList (comment.toList.dropWhile Text.isBlank)]

/-! ## Collections -/

/-- An item in brackets: the lines in front of it, its text, the comment behind it, and whether it takes
lines of its own for another reason. -/
structure FlowLine where
  before : List String := []
  text : String
  comment : String := ""
  broken : Bool := false

/-- The lines of the items of an indent, with commas between them. -/
def linesOf (indent : Nat) : List FlowLine → List String
  | [] => []
  | l :: r =>
    let text := if r.isEmpty then l.text else l.text ++ ","
    let line := if l.comment = "" then text else text ++ commentBehind indent text l.comment
    l.before ++ line :: linesOf indent r

/-- A collection of items in brackets. -/
def bracket (indent itemIndent : Nat) (opening closing : String) (items : List FlowLine) : String :=
  let lines := linesOf itemIndent items
  let width := lines.foldl (fun n line => n + unitLength line.toList + 2) 2
  let broken := lineWidth < width || items.any fun l =>
    l.broken || l.comment != "" || !l.before.isEmpty || l.text.contains '\n'
  let margin := blanks indent
  if lines.isEmpty then opening ++ closing
  else if broken then
    opening ++ String.join (lines.map fun line => if line = "" then "\n" else "\n  " ++ margin ++ line)
      ++ "\n" ++ margin ++ closing
  else opening ++ " " ++ " ".intercalate lines ++ " " ++ closing

/-- A node's text behind its tag and anchor. -/
def withMarks (marks text : String) : String := if marks = "" then text else marks ++ " " ++ text

/-- The context of a node behind its tag and anchor. -/
def Context.behind (c : Context) (marks : String) : Context :=
  if marks = "" then c else { c with lead := some (c.lead.getD 0 + unitLength marks.toList + 1) }

/-- Whether a key is announced by a mark: it is no scalar in its line. -/
def Node.isMarkedKey : Node → Bool
  | .scalar _ s => s.style == .block
  | _ => true

def Node.isGiven : Node → Bool
  | .absent => false
  | _ => true

def Node.isScalar : Node → Bool
  | .scalar .. => true
  | _ => false

/-- What stands between the mark of an entry's value and the value. -/
def valueGap (inner : Nat) (key value : Node) (spelled : String) : String :=
  let v := value.marks
  if key.marks.comment != "" || v.gap || v.before != "" then
    (if v.gap then "\n" else "") ++
      (if v.before = "" then "" else "\n" ++ indentComment inner (spellComment v.before)) ++
      "\n" ++ blanks inner
  else if !key.isMarkedKey && value.isCollection then
    if spelled.contains '\n' then "\n" ++ blanks inner else " "
  else if spelled = "" || spelled.startsWith "\n" then ""
  else " "

/-- The text of an entry whose line has an indent, from the spelling of its key. `bare` tells whether
values are left out; `lead` is what stands before the value, unless the key does. -/
def entryText (indent : Nat) (bare : Bool) (lead : Option Nat) (key value : Node) (keyText : String)
    (valueText : Context → String) : String :=
  let marked := key.isMarkedKey
  if bare || !value.isGiven then
    if keyText = "" then "?" else if marked then "? " ++ keyText else keyText
  else
    let comment := key.marks.comment
    let behind (text : String) : String :=
      if comment = "" then text else text ++ commentBehind (indent + 2) text comment
    let start := if marked then "? " ++ behind keyText ++ "\n" ++ blanks indent ++ ":"
      else behind (keyText ++ ":")
    let lead := if !marked && comment = "" && value.isScalar then
        some (unitLength keyText.toList + 1) else lead
    let spelled := valueText { indent := indent + 2, lead }
    start ++ valueGap (indent + 2) key value spelled ++ spelled

mutual

/-- The spelling of a node in a context, behind its tag and anchor. -/
def Node.spellIn (d : Directives) (c : Context) : Node → String
  | .absent => ""
  | .scalar m s =>
    let marks := m.spell d
    withMarks marks (s.spell (c.behind marks) m.tag)
  | .alias _ name _ => "*" ++ name
  | .seq m items =>
    let marks := m.spell d
    let c := c.behind marks
    withMarks marks
      (bracket c.indent (c.indent + 4) "[" "]" (spellItems d { c with indent := c.indent + 4 } items))
  | .map m entries =>
    let marks := m.spell d
    let c := c.behind marks
    let bare := entries.all fun e => !e.2.isGiven
    withMarks marks
      (bracket c.indent (c.indent + 2) "\x7b" "\x7d" (spellEntries d bare (c.indent + 2) c.lead entries))
  | .set m entries =>
    let marks := m.spell d
    let c := c.behind marks
    withMarks marks
      (bracket c.indent (c.indent + 2) "\x7b" "\x7d" (spellEntries d true (c.indent + 2) c.lead entries))

def spellItems (d : Directives) (c : Context) : List Node → List FlowLine
  | [] => []
  | n :: r =>
    let m := n.marks
    let next := match n with
      | .alias .. => c
      | _ => c.behind (m.spell d)
    { before := linesBefore (c.indent - 4) m, text := n.spellIn d c, comment := m.comment }
      :: spellItems d next r

def spellEntries (d : Directives) (bare : Bool) (indent : Nat) (lead : Option Nat) :
    List (Node × Node) → List FlowLine
  | [] => []
  | (key, value) :: r =>
    let c : Context := { indent := indent + 2, lead, implicit := !key.isMarkedKey && !bare }
    let after := match key with
      | .alias .. => c
      | _ => c.behind (key.marks.spell d)
    let text := entryText indent bare after.lead key value (key.spellIn d c)
      (fun c => value.spellIn d c)
    let comment := if value.isGiven then value.marks.comment else key.marks.comment
    { before := linesBefore (indent - 2) key.marks, text, comment
      broken := key.marks.comment != "" || value.marks.before != "" }
      :: spellEntries d bare indent lead r

end

/-- The spelling of a collection or alias without its own tag and anchor. -/
def Node.spell (d : Directives) : Node → String
  | .alias _ name _ => "*" ++ name
  | n => (n.mark fun m => { m with anchor := none, tag := "" }).spellIn d {}

end Yaml

end LintEngine
