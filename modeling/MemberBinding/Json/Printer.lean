import MemberBinding.Json.Basic

/-!
# Writing JSON

Compact, or with one item per line. In a string only quotes, backslashes and control characters
are escaped, the common ones by a letter.
-/

namespace MemberBinding.Json

def escape (c : Char) : List Char :=
  match c with
  | '"' => ['\\', '"']
  | '\\' => ['\\', '\\']
  | '\x08' => ['\\', 'b']
  | '\t' => ['\\', 't']
  | '\n' => ['\\', 'n']
  | '\x0c' => ['\\', 'f']
  | '\r' => ['\\', 'r']
  | c =>
    if c.toNat < 0x20 then
      ['\\', 'u', '0', '0', Nat.digitChar (c.toNat / 16), Nat.digitChar (c.toNat % 16)]
    else [c]

def quote (s : String) : List Char := '"' :: s.toList.flatMap escape ++ ['"']

def atom : Json → List Char
  | null => ['n', 'u', 'l', 'l']
  | bool true => ['t', 'r', 'u', 'e']
  | bool false => ['f', 'a', 'l', 's', 'e']
  | number n => n.text.toList
  | string s => quote s
  | array _ => ['[', ']']
  | object _ => ['\x7b', '\x7d']

mutual

def compact : Json → List Char
  | array items => '[' :: compactItems items ++ [']']
  | object fields => '\x7b' :: compactFields fields ++ ['\x7d']
  | j => j.atom

def compactItems : List Json → List Char
  | [] => []
  | [j] => j.compact
  | j :: js => j.compact ++ ',' :: compactItems js

def compactFields : List (String × Json) → List Char
  | [] => []
  | [(k, j)] => quote k ++ ':' :: j.compact
  | (k, j) :: fields => quote k ++ ':' :: j.compact ++ ',' :: compactFields fields

end

def newline (depth : Nat) : List Char := '\n' :: List.replicate (2 * depth) ' '

mutual

/-- `depth` is the depth of the value that is written. -/
def pretty (depth : Nat) : Json → List Char
  | array (j :: js) => '[' :: prettyItems (depth + 1) (j :: js) ++ newline depth ++ [']']
  | object (f :: fs) => '\x7b' :: prettyFields (depth + 1) (f :: fs) ++ newline depth ++ ['\x7d']
  | j => j.atom

def prettyItems (depth : Nat) : List Json → List Char
  | [] => []
  | [j] => newline depth ++ j.pretty depth
  | j :: js => newline depth ++ j.pretty depth ++ ',' :: prettyItems depth js

def prettyFields (depth : Nat) : List (String × Json) → List Char
  | [] => []
  | [(k, j)] => newline depth ++ quote k ++ [':', ' '] ++ j.pretty depth
  | (k, j) :: fields =>
    newline depth ++ quote k ++ [':', ' '] ++ j.pretty depth ++ ',' :: prettyFields depth fields

end

def compactText (j : Json) : String := String.ofList j.compact

def prettyText (j : Json) : String := String.ofList (j.pretty 0)

end MemberBinding.Json
