/-
# Numerals

Natural numbers as text: decimal digits without padding, and base-sixteen
digits in a fixed width.  Readers take digits only, so a sign, a space or a
digit of another script is never a numeral.
-/

namespace Gamebook.Text

/-- The value of a decimal digit; other characters are not looked at. -/
def digitValue (c : Char) : Nat := c.toNat - '0'.toNat

/-- One or more ASCII decimal digits and nothing else. -/
def isNumeral (cs : List Char) : Bool := !cs.isEmpty && cs.all Char.isDigit

/-- The number that a run of decimal digits writes, leading zeros allowed. -/
def ofDecimal (cs : List Char) : Nat := cs.foldl (fun n c => 10 * n + digitValue c) 0

/-- The decimal digits of a number, no leading zeros. -/
def decimal (n : Nat) : List Char := Nat.toDigits 10 n

/-- Decimal digits padded with zeros on the left to at least `width`. -/
def decimalPadded (width n : Nat) : List Char :=
  List.replicate (width - (decimal n).length) '0' ++ decimal n

/-- The value of a base-sixteen digit in either letter case. -/
def hexValue? (c : Char) : Option Nat :=
  if '0' ≤ c ∧ c ≤ '9' then some (c.toNat - '0'.toNat)
  else if 'a' ≤ c ∧ c ≤ 'f' then some (c.toNat - 'a'.toNat + 10)
  else if 'A' ≤ c ∧ c ≤ 'F' then some (c.toNat - 'A'.toNat + 10)
  else none

def isHex (c : Char) : Bool := (hexValue? c).isSome

/-- The number that base-sixteen digits write; `none` if any is not a digit. -/
def ofHex? (cs : List Char) : Option Nat :=
  cs.foldlM (fun n c => (hexValue? c).map (16 * n + ·)) 0

/-- The lowest `width` base-sixteen digits of a number, in lower case. -/
def hexFixed : Nat → Nat → List Char
  | 0, _ => []
  | width + 1, n => hexFixed width (n / 16) ++ [Nat.digitChar (n % 16)]

theorem length_hexFixed (width n : Nat) : (hexFixed width n).length = width := by
  induction width generalizing n with
  | zero => rfl
  | succ w ih => simp [hexFixed, ih]

end Gamebook.Text
