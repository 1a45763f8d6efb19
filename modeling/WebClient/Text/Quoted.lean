import WebClient.Text
import WebClient.Text.Visible

/-!
# Quoted text

A text between quotes, in which whatever is not plainly visible is written with a
backslash.
-/

set_option autoImplicit false

namespace WebClient.Text

def quotedChar (c : Char) : Text :=
  match c with
  | '\x00' => ['\\', '0']
  | '\t' => ['\\', 't']
  | '\n' => ['\\', 'n']
  | '\r' => ['\\', 'r']
  | '"' => ['\\', '"']
  | '\\' => ['\\', '\\']
  | c =>
    if isVisible c then [c]
    else ['\\', 'u', '\x7b'] ++ Nat.toDigits 16 c.toNat ++ ['\x7d']

def quoted (text : Text) : Text :=
  '"' :: text.flatMap quotedChar ++ ['"']

end WebClient.Text
