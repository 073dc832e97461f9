/-
The regular expression of a glob, as text: anchored at both ends, with a run of characters written
`[\s\S]*` and one character `[\s\S]`. Outside a set the characters with a meaning in expressions are
escaped, inside a set those with a meaning in sets. An empty set never matches, its complement
matches any character.
-/
import LintEngine.Glob.Basic

namespace LintEngine

namespace Glob

/-- The characters that have a meaning outside a set. -/
def expressionSpecial : List Char :=
  ['.', '*', '+', '?', '^', '$', '{', '}', '(', ')', '|', '[', ']', '\\', '/']

/-- The characters that have a meaning inside a set. -/
def setSpecial : List Char :=
  ['\\', ']', '[', '^', '-']

/-- A character with a backslash before it when it is one of `special`. -/
def escapeIn (special : List Char) (c : Char) : List Char :=
  if c ∈ special then ['\\', c] else [c]

def Item.source : Item → List Char
  | .one c => escapeIn setSpecial c
  | .range lo hi => escapeIn setSpecial lo ++ '-' :: escapeIn setSpecial hi

def anyCharacter : List Char := "[\\s\\S]".toList

def Piece.source : Piece → List Char
  | .literal c => escapeIn expressionSpecial c
  | .anyRun => anyCharacter ++ ['*']
  | .anyOne => anyCharacter
  | .oneOf false [] => "(?!)".toList
  | .oneOf true [] => anyCharacter
  | .oneOf false items => '[' :: items.flatMap Item.source ++ [']']
  | .oneOf true items => '[' :: '^' :: items.flatMap Item.source ++ [']']

def source (g : Glob) : String :=
  String.ofList ("^(?:".toList ++ g.pieces.flatMap Piece.source ++ ")$".toList)

end Glob

end LintEngine
