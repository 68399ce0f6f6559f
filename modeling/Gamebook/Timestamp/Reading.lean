/-
# Reading timestamps

The reader is laxer than the writer: numbers may be short, blanks may stand
before any number and any separator, the date and the time may be parted by a
space, the offset may be `Z`, `UTC` or hours and minutes east or west, and
fraction digits after the ninth are dropped.  The date and the time must exist.

A piece is read by a function from the remaining characters to its value and
the characters behind it.
-/
import Gamebook.Timestamp

namespace Gamebook.Timestamp

/-- The characters of the Unicode property White_Space. -/
def isBlank (c : Char) : Bool :=
  let n := c.toNat
  (9 ≤ n && n ≤ 13) || n == 0x20 || n == 0x85 || n == 0xa0 || n == 0x1680 ||
    (0x2000 ≤ n && n ≤ 0x200a) || n == 0x2028 || n == 0x2029 || n == 0x202f || n == 0x205f ||
    n == 0x3000

def skipBlanks (cs : List Char) : List Char := cs.dropWhile isBlank

/-- At least one and at most `most` digits. -/
def readDigits? (most : Nat) (cs : List Char) : Option (List Char × List Char) :=
  let digits := (cs.take most).takeWhile Char.isDigit
  if digits.isEmpty then none else some (digits, cs.drop digits.length)

/-- A number of at most `most` digits, blanks before it skipped. -/
def readNumber? (most : Nat) (cs : List Char) : Option (Nat × List Char) :=
  (readDigits? most (skipBlanks cs)).map fun p => (Text.ofDecimal p.1, p.2)

/-- A separator, blanks before it skipped. -/
def readMark? (mark : Char) (cs : List Char) : Option (List Char) :=
  match skipBlanks cs with
  | c :: rest => if c = mark then some rest else none
  | [] => none

/-- A year: up to four digits, or a sign and any number of them. -/
def readYear? (cs : List Char) : Option (Int × List Char) :=
  let signed (sign : Int) (rest : List Char) :=
    (readDigits? rest.length rest).map fun p => (sign * Text.ofDecimal p.1, p.2)
  match skipBlanks cs with
  | '-' :: rest => signed (-1) rest
  | '+' :: rest => signed 1 rest
  | rest => (readDigits? 4 rest).map fun p => ((Text.ofDecimal p.1 : Nat), p.2)

/-- The fraction of a second in nanoseconds; zero if there is no point. -/
def readFraction? (cs : List Char) : Option (Nat × List Char) :=
  match cs with
  | '.' :: rest =>
      (readDigits? 9 rest).map fun p =>
        (Text.ofDecimal p.1 * Nat.pow 10 (9 - p.1.length), p.2.dropWhile Char.isDigit)
  | _ => some (0, cs)

def readDate? (cs : List Char) : Option (Date × List Char) := do
  let (year, cs) ← readYear? cs
  let cs ← readMark? '-' cs
  let (month, cs) ← readNumber? 2 cs
  let cs ← readMark? '-' cs
  let (day, cs) ← readNumber? 2 cs
  return (⟨year, month, day⟩, cs)

/-- What follows the letter or space between the date and the time. -/
def readParting? : List Char → Option (List Char)
  | c :: rest => if c = 'T' ∨ c = 't' ∨ c = ' ' then some rest else none
  | [] => none

def readClock? (cs : List Char) : Option (Clock × List Char) := do
  let (hour, cs) ← readNumber? 2 cs
  let cs ← readMark? ':' cs
  let (minute, cs) ← readNumber? 2 cs
  let cs ← readMark? ':' cs
  let (second, cs) ← readNumber? 2 cs
  let (nanosecond, cs) ← readFraction? cs
  return (⟨hour, minute, second, nanosecond⟩, cs)

def readTwoDigits? : List Char → Option (Nat × List Char)
  | a :: b :: rest =>
      if a.isDigit ∧ b.isDigit then some (Text.ofDecimal [a, b], rest) else none
  | _ => none

/-- The sign of an offset; the typographic minus sign counts. -/
def readSign? : List Char → Option (Int × List Char)
  | '+' :: rest => some (1, rest)
  | '-' :: rest => some (-1, rest)
  | '\u2212' :: rest => some (-1, rest)
  | _ => none

/-- Hours and minutes with a sign, in minutes. -/
def readHoursMinutes? (cs : List Char) : Option (Int × List Char) := do
  let (sign, cs) ← readSign? cs
  let (hours, cs) ← readTwoDigits? cs
  let (minutes, cs) ← readTwoDigits? (cs.dropWhile fun c => c = ':' || isBlank c)
  if minutes < 60 then some (sign * (60 * hours + minutes : Nat), cs) else none

/-- The three letters that stand for offset zero, in any case. -/
def isUniversal (cs : List Char) : Bool := (cs.take 3).map Char.toLower == ['u', 't', 'c']

/-- The offset from universal time in minutes. -/
def readOffset? (cs : List Char) : Option (Int × List Char) :=
  if isUniversal cs then some (0, cs.drop 3)
  else
    match cs with
    | 'Z' :: rest | 'z' :: rest => some (0, rest)
    | _ => readHoursMinutes? cs

/-- Read a date, a time and an offset; blanks may follow, nothing else. -/
def ofChars? (cs : List Char) : Option Timestamp := do
  let (date, cs) ← readDate? cs
  let cs ← readParting? cs
  let (clock, cs) ← readClock? cs
  let (offset, cs) ← readOffset? (skipBlanks cs)
  if (skipBlanks cs).isEmpty then ofLocal? date clock offset else none

/-- Read the written form, or any other the reader takes. -/
def ofText? (s : String) : Option Timestamp := ofChars? s.toList

end Gamebook.Timestamp
