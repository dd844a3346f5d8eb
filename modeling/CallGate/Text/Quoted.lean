import CallGate.Text.Hidden

/-!
# Quoted texts

Messages show a name or a text between double quotes, so that blanks at its ends and characters that
cannot be seen do not go unnoticed. Quotes, backslashes and the common controls are escaped with a
backslash, and hidden characters are written as their code point in hexadecimal digits between
braces.
-/

namespace CallGate

/-- The lower-case hexadecimal digits of a number, without leading zeros. -/
def hexText (n : Nat) : List Char := Nat.toDigits 16 n

/-- The written form of one character of a quoted text. -/
def quotedChar (c : Char) : List Char :=
  match c with
  | '\x00' => ['\\', '0']
  | '\t' => ['\\', 't']
  | '\n' => ['\\', 'n']
  | '\r' => ['\\', 'r']
  | '"' => ['\\', '"']
  | '\\' => ['\\', '\\']
  | c => if isHidden c then '\\' :: 'u' :: '\x7b' :: hexText c.toNat ++ ['\x7d'] else [c]

/-- The text between double quotes. -/
def quoted (s : String) : String :=
  String.ofList ('"' :: s.toList.flatMap quotedChar ++ ['"'])

/-- Texts separated by commas. -/
def commaSeparated (items : List String) : String := ", ".intercalate items

end CallGate
