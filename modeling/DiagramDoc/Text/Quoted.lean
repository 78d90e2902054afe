import DiagramDoc.Text.Visible

/-!
# Quoted text

A text between double quotes as messages show it: quotes, backslashes and whatever would not be seen
are escaped.
-/

namespace DiagramDoc.Text

def hexDigits (n : Nat) : Text := Nat.toDigits 16 n

def quotedChar (c : Char) : Text :=
  match c with
  | '"' => ['\\', '"']
  | '\\' => ['\\', '\\']
  | '\n' => ['\\', 'n']
  | '\r' => ['\\', 'r']
  | '\t' => ['\\', 't']
  | '\x00' => ['\\', '0']
  | c => if isVisible c then [c] else '\\' :: 'u' :: '\x7b' :: (hexDigits c.toNat ++ ['\x7d'])

def quoted (t : Text) : Text := '"' :: (t.flatMap quotedChar ++ ['"'])

end DiagramDoc.Text
