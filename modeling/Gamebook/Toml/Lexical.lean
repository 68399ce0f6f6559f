/-
# Blanks, strings and keys of TOML

The smallest parts of a document.  A reader takes the characters ahead to a
value and the characters behind it, `none` if they begin with no such part.
-/
import Gamebook.Text.Numeral
import Gamebook.Toml

namespace Gamebook.Toml

/-! ## Blanks and comments -/

def isBlank (c : Char) : Bool := c == ' ' || c == '\t'

def skipBlanks (cs : List Char) : List Char := cs.dropWhile isBlank

/-- The characters that comments and strings may hold as they are: no controls but the tab. -/
def isPrintable (c : Char) : Bool := c == '\t' || (0x20 ≤ c.toNat && c.toNat != 0x7f)

/-- What follows the blanks, line ends and comments ahead; the flag says that a comment has
begun. -/
def skipLines (inComment : Bool) : List Char → List Char
  | [] => []
  | c :: cs =>
      if c = '\n' ∨ (c = '\r' ∧ cs.head? = some '\n') then skipLines false cs
      else if inComment then
        if isPrintable c then skipLines true cs else c :: cs
      else if isBlank c then skipLines false cs
      else if c = '#' then skipLines true cs
      else c :: cs

/-- What follows a line end; the end of the text is one. -/
def lineEnd? (cs : List Char) : Option (List Char) :=
  match cs with
  | [] => some []
  | '\n' :: rest => some rest
  | '\r' :: '\n' :: rest => some rest
  | _ => none

/-- What follows the end of a statement, with a comment behind it or not. -/
def statementEnd? (cs : List Char) : Option (List Char) :=
  match skipBlanks cs with
  | '#' :: rest => lineEnd? (rest.dropWhile isPrintable)
  | rest => lineEnd? rest

/-! ## Escapes -/

/-- A character written with a fixed number of base-sixteen digits. -/
def readCodePoint? (width : Nat) (cs : List Char) : Option (Char × List Char) :=
  let digits := cs.take width
  if digits.length = width then
    match Text.ofHex? digits with
    | none => none
    | some n => if n.isValidChar then some (Char.ofNat n, cs.drop width) else none
  else none

/-- The character that an escape writes, after its backslash. -/
def readEscape? (cs : List Char) : Option (Char × List Char) :=
  match cs with
  | 'b' :: rest => some ('\x08', rest)
  | 't' :: rest => some ('\t', rest)
  | 'n' :: rest => some ('\n', rest)
  | 'f' :: rest => some ('\x0c', rest)
  | 'r' :: rest => some ('\r', rest)
  | '"' :: rest => some ('"', rest)
  | '\\' :: rest => some ('\\', rest)
  | 'u' :: rest => readCodePoint? 4 rest
  | 'U' :: rest => readCodePoint? 8 rest
  | _ => none

/-! ## Strings

In the loops below `taken` holds the characters read so far, last first, and the number bounds the
steps left. -/

/-- A string on one line, after its opening quote. -/
def readBasic? (taken : List Char) : Nat → List Char → Option (String × List Char)
  | 0, _ => none
  | _ + 1, [] => none
  | steps + 1, c :: rest =>
      if c = '"' then some (String.ofList taken.reverse, rest)
      else if c = '\\' then
        match readEscape? rest with
        | some (escaped, rest) => readBasic? (escaped :: taken) steps rest
        | none => none
      else if isPrintable c then readBasic? (c :: taken) steps rest
      else none

/-- A string without escapes on one line, after its opening quote. -/
def readLiteral? (cs : List Char) : Option (String × List Char) :=
  let held (c : Char) := isPrintable c && c != '\''
  match cs.dropWhile held with
  | '\'' :: rest => some (String.ofList (cs.takeWhile held), rest)
  | _ => none

/-- What follows a line end that stands directly behind the opening of a string of several
lines. -/
def dropFirstLineEnd (cs : List Char) : List Char :=
  match cs with
  | '\n' :: rest => rest
  | '\r' :: '\n' :: rest => rest
  | _ => cs

/-- What follows the blanks and line ends ahead. -/
def skipSpace : List Char → List Char
  | [] => []
  | c :: cs =>
      if isBlank c ∨ c = '\n' ∨ (c = '\r' ∧ cs.head? = some '\n') then skipSpace cs else c :: cs

/-- The text behind a backslash at the end of a line; `none` if the line goes on. -/
def joinedLine? (cs : List Char) : Option (List Char) :=
  let rest := skipBlanks cs
  match rest with
  | '\n' :: _ => some (skipSpace rest)
  | '\r' :: '\n' :: _ => some (skipSpace rest)
  | _ => none

/-- A string of several lines, after its opening and the line end behind that.  Up to two quotes
may stand before the closing three, and one or two anywhere inside; line ends become line feeds.
`escapes` says whether the backslash is special. -/
def readLines? (quote : Char) (escapes : Bool) (taken : List Char) :
    Nat → List Char → Option (String × List Char)
  | 0, _ => none
  | _ + 1, [] => none
  | steps + 1, c :: rest =>
      if c = quote then
        let quotes := 1 + (rest.takeWhile (· == quote)).length
        if quotes < 3 then readLines? quote escapes (c :: taken) steps rest
        else
          let closing := min quotes 5
          some (String.ofList (taken.reverse ++ List.replicate (closing - 3) quote),
            rest.drop (closing - 1))
      else if escapes ∧ c = '\\' then
        match joinedLine? rest with
        | some rest => readLines? quote escapes taken steps rest
        | none =>
            match readEscape? rest with
            | some (escaped, rest) => readLines? quote escapes (escaped :: taken) steps rest
            | none => none
      else if c = '\n' then readLines? quote escapes ('\n' :: taken) steps rest
      else if c = '\r' ∧ rest.head? = some '\n' then readLines? quote escapes taken steps rest
      else if isPrintable c then readLines? quote escapes (c :: taken) steps rest
      else none

def readString? (cs : List Char) : Option (String × List Char) :=
  match cs with
  | '"' :: '"' :: '"' :: rest => readLines? '"' true [] cs.length (dropFirstLineEnd rest)
  | '\'' :: '\'' :: '\'' :: rest => readLines? '\'' false [] cs.length (dropFirstLineEnd rest)
  | '"' :: rest => readBasic? [] cs.length rest
  | '\'' :: rest => readLiteral? rest
  | _ => none

/-! ## Keys -/

/-- The characters of keys without quotes. -/
def isKeyChar (c : Char) : Bool := c.isAlphanum || c == '-' || c == '_'

/-- A key without dots: bare or a string on one line. -/
def readSimpleKey? (cs : List Char) : Option (String × List Char) :=
  match cs with
  | '"' :: rest => readBasic? [] cs.length rest
  | '\'' :: rest => readLiteral? rest
  | _ =>
      let key := cs.takeWhile isKeyChar
      if key.isEmpty then none else some (String.ofList key, cs.dropWhile isKeyChar)

/-- The parts of a key with dots between them, blanks around each part skipped. -/
def readKeyParts? : Nat → List Char → Option (List String × List Char)
  | 0, _ => none
  | steps + 1, cs => do
      let (part, rest) ← readSimpleKey? (skipBlanks cs)
      match skipBlanks rest with
      | '.' :: rest =>
          let (parts, rest) ← readKeyParts? steps rest
          return (part :: parts, rest)
      | rest => return ([part], rest)

/-- The most levels that values and keys may nest. -/
def maxDepth : Nat := 79

/-- A key as the path of its parts in front and the last part. -/
def readKey? (cs : List Char) : Option ((List String × String) × List Char) := do
  let (parts, rest) ← readKeyParts? maxDepth cs
  let last ← parts.getLast?
  return ((parts.dropLast, last), rest)

end Gamebook.Toml
