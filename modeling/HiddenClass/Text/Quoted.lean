import HiddenClass.Text.Printable
import HiddenClass.Text.Extending

/-!
Quoted text: double quotes around the characters, with an escape for each one that would be
ambiguous or unreadable.
-/

namespace HiddenClass.Text

def hexadecimal (c : Char) : List Char := Nat.toDigits 16 c.toNat

def escape (c : Char) : List Char :=
  match c with
  | '\x00' => ['\\', '0']
  | '\t' => ['\\', 't']
  | '\r' => ['\\', 'r']
  | '\n' => ['\\', 'n']
  | '"' => ['\\', '"']
  | '\\' => ['\\', '\\']
  | c =>
    if isExtending c || !isPrintable c then '\\' :: 'u' :: '\x7b' :: hexadecimal c ++ ['\x7d']
    else [c]

def quoted (text : List Char) : List Char := '"' :: text.flatMap escape ++ ['"']

end HiddenClass.Text
