/-
Paths. A path as it is written is a text; the place it leads to is the list of names from the root.
Places are found lexically: empty names and `.` are skipped, `..` takes back the name before it, and
above the root is the root.
-/
namespace LintEngine

/-- A place in a file tree: the names on the way to it from the root. -/
abbrev Place := List String

namespace Path

def splitSlash : List Char → List (List Char)
  | [] => [[]]
  | c :: r =>
    if c = '/' then [] :: splitSlash r
    else
      match splitSlash r with
      | [] => [[c]]
      | part :: parts => (c :: part) :: parts

def parts (path : String) : List String :=
  (splitSlash path.toList).map String.ofList

def isAbsolute (path : String) : Bool :=
  path.toList.head? == some '/'

/-- Whether a path ends with a slash, so that it can only mean a directory. -/
def endsInSlash (path : String) : Bool :=
  path.toList.getLast? == some '/'

/-- Goes one part further from a stack of names, the last name first. A `..` that finds no name is
kept when `keepUp` and otherwise has no effect. -/
def follow (keepUp : Bool) (stack : List String) (part : String) : List String :=
  if part = "" ∨ part = "." then stack
  else if part = ".." then
    match stack with
    | [] => if keepUp then [".."] else []
    | top :: rest => if top = ".." then ".." :: stack else rest
  else part :: stack

def reduce (keepUp : Bool) (ps : List String) : List String :=
  (ps.foldl (follow keepUp) []).reverse

/-- The shortest path that means the same, with a final slash if the given path has one. -/
def normalize (path : String) : String :=
  let body := "/".intercalate (reduce (!isAbsolute path) (parts path))
  let body :=
    if body = "" then
      if isAbsolute path then "" else if endsInSlash path then "./" else "."
    else if endsInSlash path then body ++ "/"
    else body
  if isAbsolute path then "/" ++ body else body

/-- One path continued by another, in its shortest form. An empty path adds nothing. -/
def join (a b : String) : String :=
  if a = "" then (if b = "" then "." else normalize b)
  else if b = "" then normalize a
  else normalize (a ++ "/" ++ b)

def ofPlace (place : Place) : String :=
  "/" ++ "/".intercalate place

/-- The place that a path leads to from a directory. -/
def resolve (dir : Place) (path : String) : Place :=
  if isAbsolute path then reduce false (parts path) else reduce false (dir ++ parts path)

/-- The directory that holds what an absolute path leads to. -/
def dirname (path : String) : String :=
  ofPlace (reduce false (parts path)).dropLast

/-- The last name of an absolute path. -/
def basename (path : String) : String :=
  (reduce false (parts path)).getLastD ""

end Path

end LintEngine
