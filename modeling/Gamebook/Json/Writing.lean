/-
# Writing JSON

The indented form: two spaces a level, each item and field on its own line, and
empty lists and objects closed at once.  In strings the quote, the backslash
and the characters below the space are escaped, the latter by the short escape
if there is one; all other characters stand as they are.
-/
import Gamebook.Json
import Gamebook.Text.Numeral

namespace Gamebook.Json

/-- One character inside a string. -/
def escapeChar (c : Char) : List Char :=
  if c = '"' then ['\\', '"']
  else if c = '\\' then ['\\', '\\']
  else if c = '\x08' then ['\\', 'b']
  else if c = '\t' then ['\\', 't']
  else if c = '\n' then ['\\', 'n']
  else if c = '\x0c' then ['\\', 'f']
  else if c = '\r' then ['\\', 'r']
  else if c.toNat < 0x20 then '\\' :: 'u' :: Text.hexFixed 4 c.toNat
  else [c]

def stringText (s : String) : List Char := '"' :: s.toList.flatMap escapeChar ++ ['"']

/-- A line break and the indentation of a level. -/
def newline (level : Nat) : List Char := '\n' :: List.replicate (2 * level) ' '

mutual

/-- The indented form of a value whose first line stands at a level. -/
def indented (level : Nat) : Json → List Char
  | null => "null".toList
  | bool b => (if b then "true" else "false").toList
  | int n => (toString n).toList
  | real literal => literal.toList
  | str s => stringText s
  | arr [] => "[]".toList
  | arr (x :: xs) => '[' :: indentedItems (level + 1) (x :: xs) ++ newline level ++ [']']
  | obj [] => ['\x7b', '\x7d']
  | obj (f :: fs) => '\x7b' :: indentedFields (level + 1) (f :: fs) ++ newline level ++ ['\x7d']

/-- Items on lines of their own, with commas between them. -/
def indentedItems (level : Nat) : List Json → List Char
  | [] => []
  | [x] => newline level ++ indented level x
  | x :: y :: rest => newline level ++ indented level x ++ ',' :: indentedItems level (y :: rest)

/-- Fields on lines of their own, with commas between them. -/
def indentedFields (level : Nat) : List (String × Json) → List Char
  | [] => []
  | [(name, x)] => newline level ++ stringText name ++ ':' :: ' ' :: indented level x
  | (name, x) :: f :: rest =>
      newline level ++ stringText name ++ ':' :: ' ' :: indented level x ++
        ',' :: indentedFields level (f :: rest)

end

def text (value : Json) : String := String.ofList (indented 0 value)

end Gamebook.Json
