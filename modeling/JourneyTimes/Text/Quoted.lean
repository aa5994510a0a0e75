import JourneyTimes.Text.Printable

/-!
# Quoted text

Messages show ids and other input in double quotes.  Quotes and backslashes
are escaped by a backslash, the common controls have letters of their own,
and any other character that cannot be printed appears as its code point in
hexadecimal.
-/

namespace JourneyTimes.Text

/-- A code point between braces, in lower case hexadecimal. -/
def codePointEscape (character : Char) : List Char :=
  ['\\', 'u', '\x7b'] ++ Nat.toDigits 16 character.toNat ++ ['\x7d']

/-- How one character appears between the quotes. -/
def escape (character : Char) : List Char :=
  match character with
  | '\x00' => ['\\', '0']
  | '\t' => ['\\', 't']
  | '\n' => ['\\', 'n']
  | '\r' => ['\\', 'r']
  | '"' => ['\\', '"']
  | '\\' => ['\\', '\\']
  | character =>
    if isPrintable character then [character] else codePointEscape character

/-- The text in double quotes. -/
def quoted (text : String) : String :=
  String.ofList ('"' :: text.toList.flatMap escape ++ ['"'])

end JourneyTimes.Text
