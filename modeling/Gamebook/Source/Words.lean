/-
# Lines and words of a source

A source is read line by line.  A line is cut at its first `#`, trimmed, and
split into words at single spaces, so that a run of spaces gives empty words
and joining the words again gives the line back.
-/

namespace Gamebook.Source

/-- Split at line feeds.  A carriage return in front of a line feed goes with it, and a line feed
at the very end opens no further line. -/
def splitLines : List Char → List (List Char)
  | [] => []
  | c :: cs =>
      if c = '\n' then [] :: splitLines cs
      else if c = '\r' ∧ cs.head? = some '\n' then splitLines cs
      else
        match splitLines cs with
        | [] => [[c]]
        | line :: rest => (c :: line) :: rest

/-- The characters that are trimmed from both ends of lines and texts. -/
def isMargin (c : Char) : Bool :=
  c == ' ' || c == '\t' || c == '\n' || c == '\x0b' || c == '\x0c' || c == '\r' ||
    c == '\u0085' || c == '\u00a0'

def trim (cs : List Char) : List Char :=
  ((cs.dropWhile isMargin).reverse.dropWhile isMargin).reverse

/-- A line without its comment and margins. -/
def clean (line : List Char) : List Char := trim (line.takeWhile fun c => c != '#')

/-- Split at single spaces; never without a word. -/
def words : List Char → List (List Char)
  | [] => [[]]
  | c :: cs =>
      if c = ' ' then [] :: words cs
      else
        match words cs with
        | [] => [[c]]
        | word :: rest => (c :: word) :: rest

def unwords : List (List Char) → List Char
  | [] => []
  | [word] => word
  | word :: rest => word ++ ' ' :: unwords rest

/-- The text that a run of words makes: joined and trimmed. -/
def textOf (ws : List (List Char)) : String := String.ofList (trim (unwords ws))

end Gamebook.Source
