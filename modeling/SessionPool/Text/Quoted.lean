import SessionPool.Text.Hidden

/-!
# Quoted text

Diagnostics show a name between double quotes: the quote, the backslash and four control characters
have a short escape, every other hidden character is spelled `\u{…}` with its number in hexadecimal,
and the rest, the single quote included, stands as it is.
-/

namespace SessionPool.Text

def hexDigits (n : Nat) : List Char := Nat.toDigits 16 n

def quoteChar (c : Char) : List Char :=
  match c with
  | '\x00' => ['\\', '0']
  | '\t' => ['\\', 't']
  | '\r' => ['\\', 'r']
  | '\n' => ['\\', 'n']
  | '\\' => ['\\', '\\']
  | '"' => ['\\', '"']
  | c =>
    if isHidden c then ['\\', 'u', '\x7b'] ++ hexDigits c.toNat ++ ['\x7d'] else [c]

def quoted (s : String) : String :=
  String.ofList ('"' :: s.toList.flatMap quoteChar ++ ['"'])

end SessionPool.Text
