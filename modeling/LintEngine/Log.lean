/-
Log lines and where they go. Messages are for everyone; debug lines are written only when they are
asked for, with the name of the program in front.
-/
namespace LintEngine

inductive LogLine
  | message (text : String)
  | debug (text : String)
deriving DecidableEq, Repr, Inhabited

def messagesOf (log : List LogLine) : List String :=
  log.filterMap fun
    | .message text => some text
    | .debug _ => none

@[simp] theorem messagesOf_append (log later : List LogLine) :
    messagesOf (log ++ later) = messagesOf log ++ messagesOf later :=
  List.filterMap_append

@[simp] theorem messagesOf_debug (texts : List String) : messagesOf (texts.map .debug) = [] := by
  induction texts with
  | nil => rfl
  | cons text texts ih => exact ih

@[simp] theorem messagesOf_message (texts : List String) : messagesOf (texts.map .message) = texts := by
  induction texts with
  | nil => rfl
  | cons text texts ih => exact congrArg (text :: ·) ih

def debugOf (log : List LogLine) : List String :=
  log.filterMap fun
    | .debug text => some text
    | .message _ => none

namespace Console

/-- The variable that asks for debug lines. -/
def debugVariable : String := "CRAFT_LINT_DEBUG"

/-- Whether the environment asks for debug lines: only the value `1` does. Of several values for the
variable the last one counts. -/
def debugEnabled (environment : List (String × String)) : Bool :=
  environment.reverse.lookup debugVariable == some "1"

/-- What is written to the standard output. -/
def output (log : List LogLine) : List String :=
  messagesOf log

/-- What is written to the standard error. -/
def errors (debug : Bool) (log : List LogLine) : List String :=
  if debug then (debugOf log).map ("[craft-lint] " ++ ·) else []

end Console

end LintEngine
