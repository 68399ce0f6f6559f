/-
# Cells

A cell is a named place of a story: a heading and a list of lines.  A line has
guards on the reader's items, at most the effects of handing over one item and
taking one away, an optional link to another cell, and a text.
-/
import Gamebook.CellId

namespace Gamebook

/-- One line of a cell. -/
structure Line where
  /-- Items that must all be held. -/
  require : List String
  /-- Items of which none may be held. -/
  forbid : List String
  /-- An item handed to the reader. -/
  give : Option String
  /-- An item taken from the reader. -/
  take : Option String
  /-- The name of the cell the line links to. -/
  linksTo : Option String
  text : String
deriving DecidableEq

namespace Line

/-- No guards, no effects, no link and no text. -/
def blank : Line := ⟨[], [], none, none, none, ""⟩

def ofText (text : String) : Line := { blank with text }

def isGuarded (line : Line) : Bool := !line.require.isEmpty || !line.forbid.isEmpty

end Line

/-- A place of a story. -/
structure Cell where
  name : String
  label : Option String
  lines : List Line
deriving DecidableEq

namespace Cell

/-- The identifier of the cell, which is that of its name. -/
def id (cell : Cell) : CellId := .ofName cell.name

/-- What stands above the lines: the label, else the name. -/
def heading (cell : Cell) : String := cell.label.getD cell.name

end Cell

end Gamebook
