/-
Tags: full names for kinds of values, and the directives that let documents abbreviate them.
-/
import LintEngine.Files.Utf8
import LintEngine.Ordered.Map
import LintEngine.Text.Blank
import LintEngine.Yaml.Fold

namespace LintEngine.Yaml

/-! ## Names -/

/-- The text that the names of the common kinds start with. -/
def commonTags : String := "tag:yaml.org,2002:"

/-- The name of a text that says no more than that it is no plain one. -/
def bareTag : String := "!"

namespace Tag

def text : String := commonTags ++ "str"
def null : String := commonTags ++ "null"
def bool : String := commonTags ++ "bool"
def integer : String := commonTags ++ "int"
def float : String := commonTags ++ "float"
def seq : String := commonTags ++ "seq"
def map : String := commonTags ++ "map"
def set : String := commonTags ++ "set"

end Tag

/-! ## Percent signs -/

/-- The bytes that percent signs with two digits spell at a text's start, and what follows them. -/
def percentBytes : List Char → List UInt8 × List Char
  | '%' :: a :: b :: r =>
    match digits? 16 [a, b] with
    | some n => let (bytes, rest) := percentBytes r; (UInt8.ofNat n :: bytes, rest)
    | none => ([], '%' :: a :: b :: r)
  | text => ([], text)

/-- Replaces what percent signs spell by its characters; `none` when it is no text. `fuel` bounds the
number of steps. -/
def percentDecode? : (fuel : Nat) → List Char → Option (List Char)
  | 0, _ | _, [] => some []
  | fuel + 1, c :: r =>
    match percentBytes (c :: r) with
    | ([], _) => (percentDecode? fuel r).map (c :: ·)
    | (bytes, rest) =>
      let text := Utf8.decode bytes
      if text.toUTF8.toList = bytes then (percentDecode? fuel rest).map (text.toList ++ ·) else none

/-! ## Directives -/

/-- What a document's directives say: the texts that its handles stand for, in the order of the first
declarations. -/
structure Directives where
  handles : OrderedMap String String := OrderedMap.ofList [("!!", commonTags)]

namespace Directives

def words (line : List Char) : List String :=
  let parts := (Text.trimChars line).splitBy fun a b => isBlankChar a == isBlankChar b
  (parts.filter (!·.all isBlankChar)).map String.ofList

/-- Whether a text is a version: digits, a point, digits. -/
def isVersion (text : String) : Bool :=
  match text.splitOn "." with
  | [a, b] => [a, b].all fun s => !s.isEmpty && s.all Char.isDigit
  | _ => false

def add? (d : Directives) (line : List Char) : Option Directives :=
  match words line with
  | "%TAG" :: args =>
    match args with
    | [handle, full] => some { d with handles := d.handles.insert handle full }
    | _ => none
  | "%YAML" :: args =>
    match args with
    | [version] => if isVersion version then some d else none
    | _ => none
  | _ => some d

/-- The full name that a tag spells; the empty one for a tag that says nothing. -/
def tagName? (d : Directives) (source : List Char) : Option String :=
  match source with
  | ['!'] => some bareTag
  | '!' :: '<' :: r =>
    let name := String.ofList r.dropLast
    if name = "!" ∨ name = "!!" ∨ r.getLast? ≠ some '>' then none else some name
  | _ =>
    let suffix := (source.reverse.takeWhile (· != '!')).reverse
    let handle := String.ofList (source.take (source.length - suffix.length))
    if suffix.isEmpty then none
    else match d.handles.find? handle with
      | some full =>
        if full.isEmpty then none
        else (percentDecode? suffix.length suffix).map fun name => full ++ String.ofList name
      | none => if handle = "!" then some (String.ofList source) else none

/-- The shortest spelling of a full name, by the handle that was declared first. -/
def spellTag (d : Directives) (name : String) : String :=
  let escape (c : Char) : String :=
    (List.lookup c [('!', "%21"), (',', "%2C"), ('[', "%5B"), (']', "%5D"), ('\x7b', "%7B"),
      ('\x7d', "%7D")]).getD (String.singleton c)
  match d.handles.toList.find? fun h => h.2.toList.isPrefixOf name.toList with
  | some (handle, full) =>
    handle ++ String.join ((name.toList.drop full.length).map escape)
  | none => if name.toList.head? = some '!' then name else "!<" ++ name ++ ">"

end Directives

end LintEngine.Yaml
