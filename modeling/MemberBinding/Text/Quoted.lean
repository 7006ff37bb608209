import MemberBinding.Text.PrintTable

/-!
# Quoted text in messages

Text between double quotes that shows every character: what has no glyph of its own is written by
its code point.
-/

namespace MemberBinding.Quoted

def isHidden (c : Char) : Bool :=
  c.toNat < 0x20 || c.toNat == 0x7F ||
    0x80 ≤ c.toNat && PrintTable.hidden.any fun r => r.1 ≤ c.toNat && c.toNat ≤ r.2

def encodeChar (c : Char) : List Char :=
  match c with
  | '"' => ['\\', '"']
  | '\\' => ['\\', '\\']
  | '\n' => ['\\', 'n']
  | '\r' => ['\\', 'r']
  | '\t' => ['\\', 't']
  | '\x00' => ['\\', '0']
  | c =>
    if isHidden c then ['\\', 'u', '\x7b'] ++ Nat.toDigits 16 c.toNat ++ ['\x7d'] else [c]

def encode (s : String) : String :=
  String.ofList ('"' :: s.toList.flatMap encodeChar ++ ['"'])

end MemberBinding.Quoted
