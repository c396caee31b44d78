import ViewModifiers.Text.Visible

/-!
# Quoted texts

Descriptions, messages and generated source quote a text so that every character
of it is told apart: controls have short names or a code point in hexadecimal,
and so do characters that do not show themselves.
-/

namespace ViewModifiers
namespace Text

def hexadecimal (n : Nat) : List Char :=
  Nat.toDigits 16 n

def quotedChar (c : Char) : List Char :=
  if c == '"' then ['\\', '"']
  else if c == '\\' then ['\\', '\\']
  else if c == '\n' then ['\\', 'n']
  else if c == '\t' then ['\\', 't']
  else if c == '\r' then ['\\', 'r']
  else if c == '\x00' then ['\\', '0']
  else if isVisible c then [c]
  else '\\' :: 'u' :: '\x7b' :: hexadecimal c.toNat ++ ['\x7d']

def quoted (s : String) : String :=
  String.ofList ('"' :: s.toList.flatMap quotedChar ++ ['"'])

/-! ## Examples -/

example : quotedChar 'a' = ['a'] := by decide
example : quotedChar '"' = ['\\', '"'] := by decide

end Text
end ViewModifiers
