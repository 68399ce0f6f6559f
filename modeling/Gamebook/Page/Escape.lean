/-
# Escaping

The five characters that could end a text or an attribute value are written as
entities.
-/

namespace Gamebook.Page

/-- One character of a text as it stands in the page. -/
def escapeChar (c : Char) : List Char :=
  if c = '<' then "&lt;".toList
  else if c = '>' then "&gt;".toList
  else if c = '&' then "&amp;".toList
  else if c = '\'' then "&#39;".toList
  else if c = '"' then "&#34;".toList
  else [c]

def escape (s : String) : String := String.ofList (s.toList.flatMap escapeChar)

end Gamebook.Page
