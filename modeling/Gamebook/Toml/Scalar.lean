/-
# Numbers, truth values, dates and times of TOML

A value that is neither a string nor a container is a run of characters up to
the next blank, comma, bracket or comment.  What it is follows from the run as
a whole.
-/
import Gamebook.Timestamp
import Gamebook.Toml.Lexical

namespace Gamebook.Toml

def endsRun (c : Char) : Bool :=
  c == ' ' || c == '\t' || c == '\n' || c == '\r' || c == '#' || c == ',' || c == ']' ||
    c == '\x7d'

/-- Digits with single underscores between them, the underscores left out; at least one digit. -/
def ungroup? (isDigit : Char → Bool) : List Char → Option (List Char)
  | [] => none
  | [c] => if isDigit c then some [c] else none
  | c :: '_' :: rest => if isDigit c then (ungroup? isDigit rest).map (c :: ·) else none
  | c :: rest => if isDigit c then (ungroup? isDigit rest).map (c :: ·) else none

/-- Digits that do not begin with a superfluous zero. -/
def wholeDigits? (cs : List Char) : Option (List Char) :=
  match ungroup? Char.isDigit cs with
  | some ('0' :: _ :: _) => none
  | digits => digits

/-- A sign, if there is one; the flag says that it is a minus. -/
def splitSign (cs : List Char) : Bool × List Char :=
  match cs with
  | '+' :: rest => (false, rest)
  | '-' :: rest => (true, rest)
  | _ => (false, cs)

/-! ## Integers -/

/-- The integer that a sign and a magnitude write, if it fits in 64 bits. -/
def ofMagnitude? (negative : Bool) (n : Nat) : Option Toml :=
  if negative then if n ≤ Nat.pow 2 63 then some (integer (-n)) else none
  else if n < Nat.pow 2 63 then some (integer n) else none

def ofBase (base : Nat) (digits : List Char) : Nat :=
  digits.foldl (fun n c => base * n + (Text.hexValue? c).getD 0) 0

def isDigitOf (base : Nat) (c : Char) : Bool := (Text.hexValue? c).any (· < base)

/-- An integer in a base that its beginning names. -/
def readBased? (base : Nat) (cs : List Char) : Option Toml :=
  (ungroup? (isDigitOf base) cs).bind fun digits => ofMagnitude? false (ofBase base digits)

def readInteger? (cs : List Char) : Option Toml :=
  match cs with
  | '0' :: 'x' :: rest => readBased? 16 rest
  | '0' :: 'o' :: rest => readBased? 8 rest
  | '0' :: 'b' :: rest => readBased? 2 rest
  | _ =>
      let (negative, rest) := splitSign cs
      (wholeDigits? rest).bind fun digits => ofMagnitude? negative (Text.ofDecimal digits)

/-! ## Floating-point numbers -/

/-- Whether `digits · 10 ^ exponent` rounds to infinity in double precision. -/
def overflows (digits : List Char) (exponent : Int) : Bool :=
  let significant := digits.dropWhile (· == '0')
  let size : Int := significant.length + exponent
  let limit := Nat.pow 2 1024 - Nat.pow 2 970
  if significant.isEmpty ∨ size < 300 then false
  else if 310 < size then true
  else
    limit * Nat.pow 10 (-exponent).toNat ≤
      Text.ofDecimal significant * Nat.pow 10 exponent.toNat

/-- The part behind a marking character, or nothing if the character is not there. -/
def splitAtMark (isMark : Char → Bool) (cs : List Char) : List Char × Option (List Char) :=
  match cs.dropWhile fun c => !isMark c with
  | [] => (cs, none)
  | _ :: rest => (cs.takeWhile fun c => !isMark c, some rest)

/-- The digits of a part that may be left out. -/
def optionalDigits? : Option (List Char) → Option (List Char)
  | none => some []
  | some cs => ungroup? Char.isDigit cs

/-- The value of an exponent that may be left out. -/
def exponentValue? : Option (List Char) → Option Int
  | none => some 0
  | some cs =>
      let (negative, digits) := splitSign cs
      (ungroup? Char.isDigit digits).map fun digits =>
        if negative then -(Text.ofDecimal digits : Int) else Text.ofDecimal digits

/-- A number with a fraction, an exponent or both.  One that is too large is refused. -/
def readDecimal? (cs : List Char) : Option Toml := do
  let (negative, unsigned) := splitSign cs
  let (mantissa, exponent) := splitAtMark (fun c => c == 'e' || c == 'E') unsigned
  let (whole, fraction) := splitAtMark (· == '.') mantissa
  if exponent.isNone ∧ fraction.isNone then none
  else
    let whole ← wholeDigits? whole
    let fraction ← optionalDigits? fraction
    let exponent ← exponentValue? exponent
    if !negative ∧ overflows (whole ++ fraction) (exponent - fraction.length) then none
    else return float (String.ofList cs)

/-- Infinity and the value that is no number. -/
def readSpecial? (cs : List Char) : Option Toml :=
  let word := (splitSign cs).2
  if word = ['i', 'n', 'f'] ∨ word = ['n', 'a', 'n'] then some (float (String.ofList cs)) else none

/-! ## Dates and times -/

/-- Exactly `width` digits and what follows them. -/
def readFixed? (width : Nat) (cs : List Char) : Option (Nat × List Char) :=
  let digits := cs.take width
  if digits.length = width ∧ digits.all Char.isDigit then
    some (Text.ofDecimal digits, cs.drop width)
  else none

def readMark? (mark : Char) (cs : List Char) : Option (List Char) :=
  match cs with
  | c :: rest => if c = mark then some rest else none
  | [] => none

def skipDate? (cs : List Char) : Option (List Char) := do
  let (year, cs) ← readFixed? 4 cs
  let cs ← readMark? '-' cs
  let (month, cs) ← readFixed? 2 cs
  let cs ← readMark? '-' cs
  let (day, cs) ← readFixed? 2 cs
  if 1 ≤ day ∧ day ≤ daysInMonth year month then some cs else none

def skipHourMinute? (cs : List Char) : Option (List Char) := do
  let (hour, cs) ← readFixed? 2 cs
  let cs ← readMark? ':' cs
  let (minute, cs) ← readFixed? 2 cs
  if hour < 24 ∧ minute < 60 then some cs else none

/-- What follows a fraction of a second; a point must have a digit behind it. -/
def skipFraction? (cs : List Char) : Option (List Char) :=
  match cs with
  | '.' :: rest =>
      if (rest.takeWhile Char.isDigit).isEmpty then none else some (rest.dropWhile Char.isDigit)
  | _ => some cs

/-- What follows a time of day; a minute may have a leap second. -/
def skipTime? (cs : List Char) : Option (List Char) := do
  let cs ← skipHourMinute? cs
  let cs ← readMark? ':' cs
  let (second, cs) ← readFixed? 2 cs
  if second ≤ 60 then skipFraction? cs else none

/-- Whether a run is an offset from universal time, or nothing. -/
def isOffset (cs : List Char) : Bool :=
  match cs with
  | [] => true
  | ['Z'] | ['z'] => true
  | '+' :: rest => skipHourMinute? rest == some []
  | '-' :: rest => skipHourMinute? rest == some []
  | _ => false

/-- Whether a run is a time of day with an offset or without. -/
def isOffsetTime (cs : List Char) : Bool := (skipTime? cs).any isOffset

/-- Whether a run is a date, with a time behind it or not. -/
def isDate (cs : List Char) : Bool :=
  match skipDate? cs with
  | some [] => true
  | some (c :: rest) => (c == 'T' || c == 't') && isOffsetTime rest
  | none => false

/-- Whether a run is a time of day alone. -/
def isTime (cs : List Char) : Bool := skipTime? cs == some []

/-! ## Runs -/

def ofRun? (run : List Char) : Option Toml :=
  if run = "true".toList then some (boolean true)
  else if run = "false".toList then some (boolean false)
  else if isDate run || isTime run then some (datetime (String.ofList run))
  else (readInteger? run).or ((readDecimal? run).or (readSpecial? run))

/-- A run with the run behind a single space, where these are a date and a time. -/
def readSpacedDate? (run rest : List Char) : Option (Toml × List Char) :=
  match rest with
  | ' ' :: rest =>
      let time := rest.takeWhile fun c => !endsRun c
      if skipDate? run == some [] && isOffsetTime time then
        some (datetime (String.ofList (run ++ ' ' :: time)), rest.drop time.length)
      else none
  | _ => none

/-- A value that is neither a string nor a container. -/
def readRun? (cs : List Char) : Option (Toml × List Char) :=
  let run := cs.takeWhile fun c => !endsRun c
  let rest := cs.drop run.length
  (readSpacedDate? run rest).or ((ofRun? run).map fun value => (value, rest))

def readScalar? (cs : List Char) : Option (Toml × List Char) :=
  match cs with
  | '"' :: _ | '\'' :: _ => (readString? cs).map fun p => (string p.1, p.2)
  | _ => readRun? cs

end Gamebook.Toml
