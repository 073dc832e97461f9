/-
Programs that run without a system: `printf`, `echo`, `true`, `false`, and `sh` with a script of such
commands. A script is a list of commands parted by `;`, or by `&&` and `||` where the next one depends
on how the last one ended; a command's words can be quoted, `>&2` sends its output to the errors, and
`exit` ends the script.
-/
import LintEngine.Process.Program

namespace LintEngine.Shell

open Program

/-! ## Formats -/

/-- The characters that single letters stand for after a backslash in a format. -/
def escapes : List (Char × Char) :=
  [('n', '\n'), ('t', '\t'), ('r', '\r'), ('\\', '\\'), ('"', '"'), ('a', '\x07'), ('b', '\x08'),
   ('f', '\x0c'), ('v', '\x0b')]

/-- One pass over a format: `%s` takes the next argument, `%%` is a percent sign. Gives the text and
the arguments that are left. -/
def formatOnce (args : List String) : List Char → List Char × List String
  | '\\' :: c :: r =>
    let (text, left) := formatOnce args r
    match escapes.lookup c with
    | some x => (x :: text, left)
    | none => ('\\' :: c :: text, left)
  | '%' :: 's' :: r =>
    let (text, left) := formatOnce args.tail r
    ((args.head?.getD "").toList ++ text, left)
  | '%' :: '%' :: r =>
    let (text, left) := formatOnce args r
    ('%' :: text, left)
  | c :: r =>
    let (text, left) := formatOnce args r
    (c :: text, left)
  | [] => ([], args)

/-- The text of a format, which is used again as long as it takes arguments that are left; `fuel`
bounds the passes. -/
def format (fuel : Nat) (spec : List Char) (args : List String) : List Char :=
  match fuel with
  | 0 => []
  | fuel + 1 =>
    let (text, left) := formatOnce args spec
    if left.isEmpty || left.length == args.length then text else text ++ format fuel spec left

/-! ## Programs -/

/-- How a program other than the shell ends; `none` when there is none of that name. -/
def runProgram : List String → Option Ended
  | ["printf"] => some { errors := "printf: missing operand\n", status := 1 }
  | "printf" :: spec :: args =>
    some { output := String.ofList (format (args.length + 1) spec.toList args) }
  | "echo" :: args => some { output := " ".intercalate args ++ "\n" }
  | "true" :: _ => some {}
  | "false" :: _ => some { status := 1 }
  | _ => none

/-! ## Scripts -/

/-- When a command is run, given how the one before it ended. -/
inductive Condition
  | always
  | onSuccess
  | onFailure
deriving DecidableEq, Repr

/-- A word of a script, or the end of a command with the condition for the next one. -/
inductive Token
  | word (s : String)
  | next (c : Condition)
deriving DecidableEq, Repr

/-- Where in a word the reader is. -/
inductive Quote
  | outside
  | single
  | double
deriving DecidableEq

/-- The tokens of a script; `word` is the word so far, if one has begun. A `$` with a digit stands for
the argument of that number, unless it is in single quotes. -/
def tokens (args : List String) (quote : Quote) (word : Option (List Char)) :
    List Char → List Token
  | [] => word.toList.map fun w => .word (String.ofList w)
  | c :: r =>
    let so := word.getD []
    let done := word.toList.map fun w => Token.word (String.ofList w)
    match quote, c, r with
    | .single, '\'', r => tokens args .outside (some so) r
    | .single, c, r => tokens args .single (some (so ++ [c])) r
    | .double, '"', r => tokens args .outside (some so) r
    | .outside, '\'', r => tokens args .single (some so) r
    | .outside, '"', r => tokens args .double (some so) r
    | .outside, ' ', r => done ++ tokens args .outside none r
    | .outside, ';', r | .outside, '\n', r => done ++ .next .always :: tokens args .outside none r
    | .outside, '&', '&' :: r => done ++ .next .onSuccess :: tokens args .outside none r
    | .outside, '|', '|' :: r => done ++ .next .onFailure :: tokens args .outside none r
    | quote, '$', d :: r =>
      if d.isDigit then
        let value := args.getD (d.toNat - '0'.toNat) ""
        tokens args quote (some (so ++ value.toList)) r
      else tokens args quote (some (so ++ ['$'])) (d :: r)
    | quote, c, r => tokens args quote (some (so ++ [c])) r

/-- A command of a script: its words, and when it is run. -/
structure ScriptCommand where
  condition : Condition := .always
  words : List String := []
deriving Repr

/-- The commands of a script, where the first one is run under a condition. -/
def commands (condition : Condition) (words : List String) : List Token → List ScriptCommand
  | [] => [⟨condition, words⟩]
  | .word w :: r => commands condition (words ++ [w]) r
  | .next c :: r => ⟨condition, words⟩ :: commands c [] r

/-- The words of a command with the script's arguments in place of `$@`. -/
def expand (args words : List String) : List String :=
  words.flatMap fun w => if w == "$@" then args else [w]

/-- The words that send a command's output to the errors. -/
def toErrors : List String := [">&2", "1>&2"]

/-- How a command ends whose output goes where it says. -/
def runCommand (args words : List String) : Ended :=
  match runProgram (expand args (words.filter (!toErrors.contains ·))) with
  | none => { errors := "sh: 1: " ++ words.headD "" ++ ": not found\n", status := 127 }
  | some e =>
    if words.any toErrors.contains then { e with output := "", errors := e.errors ++ e.output } else e

/-- Whether a command is run after one that ended with a status. -/
def Condition.holds (status : Nat) : Condition → Bool
  | .always => true
  | .onSuccess => status == 0
  | .onFailure => status != 0

/-- How a script ends that has written so much. -/
def runScript (args : List String) (sofar : Ended) : List ScriptCommand → Ended
  | [] => sofar
  | c :: cs =>
    if c.words.isEmpty || !c.condition.holds sofar.status then runScript args sofar cs
    else if c.words.head? == some "exit" then
      let status := (c.words[1]?.bind String.toNat?).getD sofar.status
      { sofar with status := status % 256 }
    else
      let e := runCommand args c.words
      runScript args
        { output := sofar.output ++ e.output, errors := sofar.errors ++ e.errors, status := e.status }
        cs

/-- How a program ends that is run with some arguments; `none` when there is none of that name. -/
def run (command : String) (args : List String) : Option Ended :=
  match command, args with
  | "sh", "-c" :: script :: args =>
    let ts := tokens args .outside none script.toList
    some (runScript args.tail {} (commands .always [] ts))
  | "sh", _ => some {}
  | _, _ => runProgram (command :: args)

end LintEngine.Shell
