import DiagramDoc.Json.Numeral

/-!
# JSON text

Values as text with one member or item per line, each level indented by two blanks, or as text on
one line without any blanks.
-/

namespace DiagramDoc.Json

def hexDigit (n : Nat) : Char :=
  if n < 10 then Char.ofNat ('0'.toNat + n) else Char.ofNat ('a'.toNat + (n - 10))

/-- Only quotes, backslashes and control characters below the blank are escaped. -/
def escapeChar (c : Char) : Text :=
  match c with
  | '"' => ['\\', '"']
  | '\\' => ['\\', '\\']
  | '\x08' => ['\\', 'b']
  | '\x0c' => ['\\', 'f']
  | '\n' => ['\\', 'n']
  | '\r' => ['\\', 'r']
  | '\t' => ['\\', 't']
  | c =>
    if c.toNat < 0x20 then
      ['\\', 'u', '0', '0', hexDigit (c.toNat / 16), hexDigit (c.toNat % 16)]
    else [c]

def quote (t : Text) : Text := '"' :: (t.flatMap escapeChar ++ ['"'])

def newline (depth : Nat) : Text := '\n' :: List.replicate (2 * depth) ' '

mutual

def pretty (depth : Nat) : Json → Text
  | null => "null".toList
  | boolean flag => if flag then "true".toList else "false".toList
  | integer i => Digits.ofInt i
  | real x => realText x
  | text t => quote t
  | array [] => ['[', ']']
  | array (item :: items) =>
    '[' :: (newline (depth + 1) ++ pretty (depth + 1) item ++ prettyItems (depth + 1) items ++
      newline depth ++ [']'])
  | object [] => ['\x7b', '\x7d']
  | object ((name, value) :: members) =>
    '\x7b' :: (newline (depth + 1) ++ quote name ++ [':', ' '] ++ pretty (depth + 1) value ++
      prettyMembers (depth + 1) members ++ newline depth ++ ['\x7d'])

def prettyItems (depth : Nat) : List Json → Text
  | [] => []
  | item :: items => ',' :: (newline depth ++ pretty depth item ++ prettyItems depth items)

def prettyMembers (depth : Nat) : List (Text × Json) → Text
  | [] => []
  | (name, value) :: members =>
    ',' :: (newline depth ++ quote name ++ [':', ' '] ++ pretty depth value ++
      prettyMembers depth members)

end

mutual

def compact : Json → Text
  | null => "null".toList
  | boolean flag => if flag then "true".toList else "false".toList
  | integer i => Digits.ofInt i
  | real x => realText x
  | text t => quote t
  | array [] => ['[', ']']
  | array (item :: items) => '[' :: (compact item ++ compactItems items ++ [']'])
  | object [] => ['\x7b', '\x7d']
  | object ((name, value) :: members) =>
    '\x7b' :: (quote name ++ ':' :: (compact value ++ compactMembers members ++ ['\x7d']))

def compactItems : List Json → Text
  | [] => []
  | item :: items => ',' :: (compact item ++ compactItems items)

def compactMembers : List (Text × Json) → Text
  | [] => []
  | (name, value) :: members =>
    ',' :: (quote name ++ ':' :: (compact value ++ compactMembers members))

end

end DiagramDoc.Json
