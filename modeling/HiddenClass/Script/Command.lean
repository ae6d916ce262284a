import HiddenClass.Number.Decimal
import HiddenClass.Property.Attributes
import HiddenClass.Text.Blank

/-!
The commands of a script, one to a line, and the ways in which a line can be wrong.
-/

namespace HiddenClass.Script

/-- What is wrong with a line. -/
inductive Cause where
  | arity (command : String) (count : Nat)
  | badLength (word : String)
  | badValue (word : String)
  | badFlag (flag : Char)
  | unknownCommand (word : String)
  | unknownVariable (name : String)
deriving DecidableEq, Repr

namespace Cause

def isSyntactic : Cause → Bool
  | .unknownVariable _ => false
  | _ => true

def message : Cause → String
  | .arity command count => s!"`{command}` takes {count} argument(s)"
  | .badLength word => s!"bad array length `{word}`"
  | .badValue word => s!"bad value `{word}`"
  | .badFlag flag => s!"bad attribute flag `{flag}`"
  | .unknownCommand word => s!"unknown command `{word}`"
  | .unknownVariable name => s!"unknown variable `{name}`"

end Cause

/-- An error ends a script at its line. -/
structure Error where
  line : Nat
  cause : Cause
deriving DecidableEq, Repr

def Error.message (error : Error) : String := s!"line {error.line}: {error.cause.message}"

/-- Values and flags stay words until the command is carried out, since an unknown variable that
stands before them is reported first. -/
inductive Command where
  | object (name : String) (prototype : Option String)
  | unique (name : String)
  | array (name : String) (length : Nat)
  | set (target key value : String)
  | define (target key value flags : String)
  | length (target value : String)
  | delete (target key : String)
  | get (target key : String)
  | keys (target : String)
  | shape (target : String)
  | seal (target : String)
  | gc (roots : List String)
deriving DecidableEq, Repr

/-- Digits after an optional plus sign, within a machine word. -/
def readWord (text : List Char) : Option Nat :=
  let digits := match text with
    | '+' :: rest => rest
    | rest => rest
  if digits.isEmpty || !digits.all Char.isDigit then none
  else
    let n := Decimal.ofDigits digits
    if n ≤ 4294967295 then some n else none

def readArray (name word : String) : Except Cause Command :=
  match readWord word.toList with
  | some length => .ok (.array name length)
  | none => .error (.badLength word)

def Command.read (command : String) (words : List String) : Except Cause Command :=
  match command, words with
  | "object", [name] => .ok (.object name none)
  | "object", [name, prototype] => .ok (.object name (some prototype))
  | "object", _ => .error (.arity command 1)
  | "unique", [name] => .ok (.unique name)
  | "unique", _ => .error (.arity command 1)
  | "array", [name, size] => readArray name size
  | "array", _ => .error (.arity command 2)
  | "set", [target, key, value] => .ok (.set target key value)
  | "set", _ => .error (.arity command 3)
  | "define", [target, key, value, flags] => .ok (.define target key value flags)
  | "define", _ => .error (.arity command 4)
  | "length", [target, value] => .ok (.length target value)
  | "length", _ => .error (.arity command 2)
  | "delete", [target, key] => .ok (.delete target key)
  | "delete", _ => .error (.arity command 2)
  | "get", [target, key] => .ok (.get target key)
  | "get", _ => .error (.arity command 2)
  | "keys", [target] => .ok (.keys target)
  | "keys", _ => .error (.arity command 1)
  | "shape", [target] => .ok (.shape target)
  | "shape", _ => .error (.arity command 1)
  | "seal", [target] => .ok (.seal target)
  | "seal", _ => .error (.arity command 1)
  | "gc", roots => .ok (.gc roots)
  | _, _ => .error (.unknownCommand command)

/-- `w`, `e` and `c` switch a flag on and `-` stands for none. -/
def readFlags (flags : List Char) : Except Cause Attributes :=
  flags.foldlM (fun (attributes : Attributes) flag =>
    match flag with
    | 'w' => .ok { attributes with writable := true }
    | 'e' => .ok { attributes with enumerable := true }
    | 'c' => .ok { attributes with configurable := true }
    | '-' => .ok attributes
    | other => .error (.badFlag other)) {}

/-- The words of a line up to a comment. -/
def wordsOfLine (line : List Char) : List String :=
  (Text.words (line.takeWhile (· ≠ '#'))).map String.ofList

/-- The words of every line, with the line numbers, which start at one. -/
def linesOf (source : String) : List (Nat × List String) :=
  (Text.pieces (· = '\n') source.toList).zipIdx.map fun (line, index) =>
    (index + 1, wordsOfLine line)

end HiddenClass.Script
