/-
# Navigation tokens

A position in a story, written as a cell identifier with the mask of the held
items in decimal right behind it.  Reading is lenient behind the identifier:
only a run of digits that fits no state is refused, and anything else that is
not a run of digits stands for holding nothing.
-/
import Gamebook.Fault
import Gamebook.Item

namespace Gamebook

/-- A cell and the holdings to enter it with. -/
structure Token where
  cell : CellId
  held : Holdings
deriving DecidableEq

namespace Token

def start : Token := ⟨.start, .empty⟩

def text (t : Token) : String := t.cell.text ++ t.held.text

/-- Cut a list of characters after exactly `n` bytes of its UTF-8 form; `none` if there are fewer
or the cut would split a character. -/
def splitBytes? (n : Nat) : List Char → Option (List Char × List Char)
  | [] => if n = 0 then some ([], []) else none
  | c :: cs =>
      if n = 0 then some ([], c :: cs)
      else if c.utf8Size ≤ n then
        (splitBytes? (n - c.utf8Size) cs).map fun p => (c :: p.1, p.2)
      else none

/-- The state that the characters behind the identifier write. -/
def readState (cs : List Char) : Except TokenFault Holdings :=
  if Text.isNumeral cs then
    let n := Text.ofDecimal cs
    if n < UInt64.size then .ok ⟨UInt64.ofNat n⟩ else .error .tooLarge
  else .ok .empty

/-- Read a token, or say which rule the text breaks. -/
def read (cs : List Char) : Except TokenFault Token :=
  match splitBytes? 8 cs with
  | none => .error .short
  | some (front, back) =>
      match CellId.ofDigits? front with
      | none => .error .notHex
      | some cell => (readState back).map fun held => ⟨cell, held⟩

def ofText (s : String) : Except Fault Token :=
  (read s.toList).mapError fun fault => .invalidToken s fault

end Token

end Gamebook
