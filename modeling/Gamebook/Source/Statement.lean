/-
# Statements

What one line of a source says, read from its words alone: it opens a cell,
defines an item, or adds a line to the open cell.  Directive words in front of
the text are a glyph followed by a name; the first word that has not this shape
begins the text.
-/
import Gamebook.Cell
import Gamebook.Source.Words

namespace Gamebook.Source

inductive Glyph where
  /-- Opens a cell; written `:`. -/
  | cell
  /-- Links to a cell; written `>`. -/
  | link
  /-- Defines an item; written `%`. -/
  | define
  /-- Requires an item; written `?`. -/
  | require
  /-- Forbids an item; written `!`. -/
  | forbid
  /-- Hands an item over; written `&`. -/
  | give
  /-- Takes an item away; written `@`. -/
  | take
  /-- Set aside: these glyphs mean nothing and are refused. -/
  | reserved
deriving DecidableEq

def Glyph.ofChar? (c : Char) : Option Glyph :=
  match c with
  | ':' => some .cell
  | '>' => some .link
  | '%' => some .define
  | '?' => some .require
  | '!' => some .forbid
  | '&' => some .give
  | '@' => some .take
  | '/' | '<' | '=' | '\\' | '^' | '|' | '~' => some .reserved
  | _ => none

/-- ASCII letters, digits, `_` and `-` make up names. -/
def isNameChar (c : Char) : Bool := c.isAlphanum || c == '_' || c == '-'

structure Directive where
  glyph : Glyph
  name : String
deriving DecidableEq

/-- Read a word as a directive; `none` if it has not the shape of one. -/
def Directive.ofWord? : List Char → Option Directive
  | [] => none
  | c :: name =>
      match Glyph.ofChar? c with
      | none => none
      | some glyph =>
          if !name.isEmpty && name.all isNameChar then some ⟨glyph, String.ofList name⟩ else none

inductive Statement where
  | openCell (name : String) (label : Option String)
  | defineItem (name description : String)
  | content (line : Line)
  /-- The word begins with a reserved glyph. -/
  | refused (word : String)
deriving DecidableEq

/-- A text that may be left out. -/
def nonempty? (s : String) : Option String := if s = "" then none else some s

/-- Read the words from a point on, where `line` holds what the words in front have set. -/
def Statement.ofWordsFrom (line : Line) : List (List Char) → Statement
  | [] => .content line
  | word :: rest =>
      match Directive.ofWord? word with
      | none => .content { line with text := textOf (word :: rest) }
      | some ⟨glyph, name⟩ =>
          match glyph with
          | .cell => .openCell name (nonempty? (textOf rest))
          | .define => .defineItem name (textOf rest)
          | .link => ofWordsFrom { line with linksTo := some name } rest
          | .require => ofWordsFrom { line with require := line.require ++ [name] } rest
          | .forbid => ofWordsFrom { line with forbid := line.forbid ++ [name] } rest
          | .give => .content { line with give := some name, text := textOf rest }
          | .take => .content { line with take := some name, text := textOf rest }
          | .reserved => .refused (String.ofList word)

def Statement.ofLine (line : List Char) : Statement := ofWordsFrom .blank (words line)

/-- Whether the first word of a cleaned line has the shape of a directive. -/
def beginsWithDirective (line : List Char) : Bool :=
  match words line with
  | [] => false
  | word :: _ => (Directive.ofWord? word).isSome

end Gamebook.Source
