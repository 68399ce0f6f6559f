/-
# Quoted text

The form in which messages show a piece of text: between double quotes, with a
backslash before a quote or a backslash, the four short escapes, and the code
point in braces for anything else that is not printed as itself.  A message is
therefore one line of visible characters whatever the text holds.
-/
import Gamebook.Text.Printable

namespace Gamebook.Text

/-- The digits of a code point in lower-case base sixteen, without padding. -/
def codePoint (c : Char) : List Char := Nat.toDigits 16 c.toNat

def quoteChar (c : Char) : List Char :=
  if c = '"' then ['\\', '"']
  else if c = '\\' then ['\\', '\\']
  else if c = '\x00' then ['\\', '0']
  else if c = '\t' then ['\\', 't']
  else if c = '\n' then ['\\', 'n']
  else if c = '\r' then ['\\', 'r']
  else if isPlain c then [c]
  else ['\\', 'u', '\x7b'] ++ codePoint c ++ ['\x7d']

/-- A text in quotes, on one line. -/
def quoted (s : String) : String :=
  "\"" ++ String.ofList (s.toList.flatMap quoteChar) ++ "\""

end Gamebook.Text
