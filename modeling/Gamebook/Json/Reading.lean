/-
# Reading JSON

A reader takes the characters ahead to a value and the characters behind it,
`none` if they begin with no such value.  Containers may nest 127 deep, which
also bounds the recursion; the loops over the parts of one container or string
are bounded by the number of characters ahead.
-/
import Gamebook.Json
import Gamebook.Text.Numeral

namespace Gamebook.Json

def isBlank (c : Char) : Bool := c == ' ' || c == '\t' || c == '\n' || c == '\r'

def skipBlanks (cs : List Char) : List Char := cs.dropWhile isBlank

/-- What follows a given beginning. -/
def dropExact? : List Char → List Char → Option (List Char)
  | [], cs => some cs
  | _ :: _, [] => none
  | e :: es, c :: cs => if e = c then dropExact? es cs else none

/-! ## Numbers -/

/-- The digits ahead, at least one. -/
def digits1? (cs : List Char) : Option (List Char × List Char) :=
  let digits := cs.takeWhile Char.isDigit
  if digits.isEmpty then none else some (digits, cs.dropWhile Char.isDigit)

/-- The digits of a whole number; after a leading zero nothing more. -/
def wholeDigits? (cs : List Char) : Option (List Char × List Char) :=
  match cs with
  | '0' :: rest => some (['0'], rest)
  | _ => digits1? cs

/-- A fraction with its point, or nothing. -/
def fraction? (cs : List Char) : Option (List Char × List Char) :=
  match cs with
  | '.' :: rest => (digits1? rest).map fun p => ('.' :: p.1, p.2)
  | _ => some ([], cs)

/-- The sign of an exponent, if it has one. -/
def exponentSign (cs : List Char) : List Char × List Char :=
  match cs with
  | '+' :: rest => (['+'], rest)
  | '-' :: rest => (['-'], rest)
  | _ => ([], cs)

/-- An exponent with its letter, or nothing. -/
def exponent? (cs : List Char) : Option (List Char × List Char) :=
  match cs with
  | c :: rest =>
      if c = 'e' ∨ c = 'E' then
        let (sign, rest) := exponentSign rest
        (digits1? rest).map fun p => (c :: sign ++ p.1, p.2)
      else some ([], cs)
  | [] => some ([], cs)

/-- The value of a whole number with its sign.  A negative zero and a number of more than 64 bits
are not integers. -/
def ofWhole (negative : Bool) (whole : List Char) : Json :=
  let n := Text.ofDecimal whole
  if negative then
    if 0 < n ∧ n ≤ Nat.pow 2 63 then int (-n) else real (String.ofList ('-' :: whole))
  else if n < UInt64.size then int n else real (String.ofList whole)

def readNumber? (cs : List Char) : Option (Json × List Char) := do
  let (negative, rest) := match cs with
    | '-' :: rest => (true, rest)
    | _ => (false, cs)
  let (whole, rest) ← wholeDigits? rest
  let (fraction, rest) ← fraction? rest
  let (exponent, rest) ← exponent? rest
  let value :=
    if fraction.isEmpty ∧ exponent.isEmpty then ofWhole negative whole
    else real (String.ofList ((if negative then ['-'] else []) ++ whole ++ fraction ++ exponent))
  return (value, rest)

/-! ## Strings -/

def readUnit? : List Char → Option (Nat × List Char)
  | a :: b :: c :: d :: rest => (Text.ofHex? [a, b, c, d]).map fun n => (n, rest)
  | _ => none

/-- The second half of a surrogate pair, after its backslash and letter. -/
def readLowSurrogate? (cs : List Char) : Option (Nat × List Char) := do
  let rest ← dropExact? ['\\', 'u'] cs
  let (low, rest) ← readUnit? rest
  if 0xdc00 ≤ low ∧ low < 0xe000 then some (low, rest) else none

/-- The character that the digits behind `\u` write; a surrogate must have its partner. -/
def readCodePoint? (cs : List Char) : Option (Char × List Char) := do
  let (unit, rest) ← readUnit? cs
  if 0xd800 ≤ unit ∧ unit < 0xdc00 then
    let (low, rest) ← readLowSurrogate? rest
    some (Char.ofNat (0x10000 + (unit - 0xd800) * 0x400 + (low - 0xdc00)), rest)
  else if 0xdc00 ≤ unit ∧ unit < 0xe000 then none
  else some (Char.ofNat unit, rest)

/-- The character that an escape writes, after its backslash. -/
def readEscape? (cs : List Char) : Option (Char × List Char) :=
  match cs with
  | '"' :: rest => some ('"', rest)
  | '\\' :: rest => some ('\\', rest)
  | '/' :: rest => some ('/', rest)
  | 'b' :: rest => some ('\x08', rest)
  | 'f' :: rest => some ('\x0c', rest)
  | 'n' :: rest => some ('\n', rest)
  | 'r' :: rest => some ('\r', rest)
  | 't' :: rest => some ('\t', rest)
  | 'u' :: rest => readCodePoint? rest
  | _ => none

/-- The characters up to the closing quote; `taken` holds those read so far, last first. -/
def readChars? (taken : List Char) : Nat → List Char → Option (String × List Char)
  | 0, _ => none
  | _ + 1, [] => none
  | steps + 1, c :: rest =>
      if c = '"' then some (String.ofList taken.reverse, rest)
      else if c = '\\' then
        match readEscape? rest with
        | some (escaped, rest) => readChars? (escaped :: taken) steps rest
        | none => none
      else if c.toNat < 0x20 then none
      else readChars? (c :: taken) steps rest

/-- A string, blanks before it skipped. -/
def readString? (cs : List Char) : Option (String × List Char) :=
  match skipBlanks cs with
  | '"' :: rest => readChars? [] rest.length rest
  | _ => none

/-! ## Containers -/

/-- Parts with commas between them up to a closing character; `taken` holds those read so far, last
first. -/
def readParts? {α : Type} (part? : List Char → Option (α × List Char)) (close : Char)
    (taken : List α) : Nat → List Char → Option (List α × List Char)
  | 0, _ => none
  | steps + 1, cs =>
      match part? cs with
      | none => none
      | some (x, rest) =>
          match skipBlanks rest with
          | ',' :: rest => readParts? part? close (x :: taken) steps rest
          | c :: rest => if c = close then some ((x :: taken).reverse, rest) else none
          | [] => none

/-- The parts of a container behind its opening character. -/
def readContainer? {α : Type} (part? : List Char → Option (α × List Char)) (close : Char)
    (cs : List Char) : Option (List α × List Char) :=
  match skipBlanks cs with
  | c :: rest => if c = close then some ([], rest) else readParts? part? close [] cs.length cs
  | [] => none

def readField? (value? : List Char → Option (Json × List Char)) (cs : List Char) :
    Option ((String × Json) × List Char) := do
  let (name, rest) ← readString? cs
  match skipBlanks rest with
  | ':' :: rest =>
      let (value, rest) ← value? rest
      return ((name, value), rest)
  | _ => none

/-- A value that nests less than `depth` deep, blanks before it skipped. -/
def readValue? : Nat → List Char → Option (Json × List Char)
  | 0, _ => none
  | depth + 1, cs =>
      match skipBlanks cs with
      | 'n' :: rest => (dropExact? "ull".toList rest).map fun rest => (null, rest)
      | 't' :: rest => (dropExact? "rue".toList rest).map fun rest => (bool true, rest)
      | 'f' :: rest => (dropExact? "alse".toList rest).map fun rest => (bool false, rest)
      | '"' :: rest => (readChars? [] rest.length rest).map fun p => (str p.1, p.2)
      | '[' :: rest => (readContainer? (readValue? depth) ']' rest).map fun p => (arr p.1, p.2)
      | '\x7b' :: rest =>
          (readContainer? (readField? (readValue? depth)) '\x7d' rest).map fun p => (obj p.1, p.2)
      | rest => readNumber? rest

/-- The value that a text writes, with nothing but blanks around it. -/
def ofText? (s : String) : Option Json :=
  match readValue? 128 s.toList with
  | some (value, rest) => if (skipBlanks rest).isEmpty then some value else none
  | none => none

end Gamebook.Json
