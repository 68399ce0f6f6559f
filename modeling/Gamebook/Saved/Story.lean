/-
# Saved stories

A story is saved as an object of its title, its cells under their identifiers
in ascending order, its items and the instant of its compilation.  Loading
checks the layout of the items and that every cell is under the identifier of
its name.
-/
import Gamebook.Json.Reading
import Gamebook.Json.Writing
import Gamebook.Saved.Registry
import Gamebook.Story
import Gamebook.Timestamp.Reading
import Gamebook.Token

namespace Gamebook.Saved

/-! ## Lines -/

/-- A line as data; what is empty is left out. -/
def saveLine (line : Line) : Json :=
  .obj (namesField "require" line.require ++ namesField "forbid" line.forbid ++
    optionalField "give" line.give ++ optionalField "take" line.take ++
    optionalField "links_to" line.linksTo ++ textField "text" line.text)

def setLineField (line : Line) (name : String) (value : Json) : Loaded Line :=
  match name with
  | "require" => (loadList loadString value).map fun names => { line with require := names }
  | "forbid" => (loadList loadString value).map fun names => { line with forbid := names }
  | "give" => (loadOptional value).map fun s => { line with give := s }
  | "take" => (loadOptional value).map fun s => { line with take := s }
  | "links_to" => (loadOptional value).map fun s => { line with linksTo := s }
  | "text" => (loadString value).map fun s => { line with text := s }
  | _ => .ok line

/-- Read a line; what is left out is empty. -/
def loadLine (value : Json) : Loaded Line :=
  loadRecord ["require", "forbid", "give", "take", "links_to", "text"] setLineField .blank value

/-! ## Cells -/

/-- A cell as data; a label it has not is left out. -/
def saveCell (cell : Cell) : Json :=
  .obj ([("name", .str cell.name)] ++ optionalField "label" cell.label ++
    [("lines", .arr (cell.lines.map saveLine))])

/-- The fields of a cell read so far. -/
structure CellParts where
  name : Option String
  label : Option String
  lines : Option (List Line)

def CellParts.set (p : CellParts) (name : String) (value : Json) : Loaded CellParts :=
  match name with
  | "name" => (loadString value).map fun s => { p with name := some s }
  | "label" => (loadOptional value).map fun s => { p with label := s }
  | "lines" => (loadList loadLine value).map fun lines => { p with lines := some lines }
  | _ => .ok p

def loadCell (value : Json) : Loaded Cell := do
  let p ← loadRecord ["name", "label", "lines"] CellParts.set ⟨none, none, none⟩ value
  return ⟨← required p.name, p.label, ← required p.lines⟩

/-! ## Directories of cells -/

def saveCells (cells : Directory Cell) : Json :=
  .obj (cells.entries.map fun e => (e.1.text, saveCell e.2))

/-- Store what one field holds under the identifier that its name writes. -/
def loadEntry (cells : Directory Cell) (name : String) (value : Json) :
    Loaded (Directory Cell) := do
  let id ← checked (CellId.ofText name)
  return cells.insert id (← loadCell value)

/-- Read cells in ascending order of the names they are under, wherever they belong.  Of two names
for one identifier the later stays. -/
def loadCells : Json → Loaded (Directory Cell)
  | .obj fields =>
      (Json.sortFields fields).foldlM (fun cells f => loadEntry cells f.1 f.2) .empty
  | _ => .error .malformed

/-- The first entry, in ascending order, that is not under the identifier of its cell. -/
def firstMisaddressed? (cells : Directory Cell) : Option (CellId × Cell) :=
  cells.entries.find? fun e => e.1 ≠ e.2.id

theorem addressed_of_firstMisaddressed? {cells : Directory Cell}
    (h : firstMisaddressed? cells = none) : Addressed cells := fun e he => by
  simpa using List.find?_eq_none.1 h e he

/-! ## Stories -/

def loadTimestamp (value : Json) : Loaded Timestamp := do
  required (Timestamp.ofText? (← loadString value))

/-- A story as data. -/
def saveStory (story : Story) : Json :=
  .obj [("title", .str story.title), ("cells", saveCells story.cells),
    ("items", saveRegistry story.items), ("compiled_at", .str story.compiledAt.text)]

/-- The fields of a story read so far. -/
structure StoryParts where
  title : Option String
  cells : Option (Directory Cell)
  items : Option Registry
  compiledAt : Option Timestamp

def StoryParts.set (p : StoryParts) (name : String) (value : Json) : Loaded StoryParts :=
  match name with
  | "title" => (loadString value).map fun s => { p with title := some s }
  | "cells" => (loadCells value).map fun cells => { p with cells := some cells }
  | "items" => (loadRegistry value).map fun items => { p with items := some items }
  | "compiled_at" => (loadTimestamp value).map fun t => { p with compiledAt := some t }
  | _ => .ok p

/-- A story of the given parts, if all its cells are where they belong. -/
def assemble (title : String) (cells : Directory Cell) (items : Registry)
    (compiledAt : Timestamp) : Except Fault Story :=
  match h : firstMisaddressed? cells with
  | some (stored, cell) => .error (.misaddressedCell cell.name stored cell.id)
  | none => .ok ⟨title, cells, items, compiledAt, addressed_of_firstMisaddressed? h⟩

def loadStory (value : Json) : Loaded Story := do
  let p ← loadRecord ["title", "cells", "items", "compiled_at"] StoryParts.set
    ⟨none, none, none, none⟩ value
  checked (assemble (← required p.title) (← required p.cells) (← required p.items)
    (← required p.compiledAt))

def storyText (story : Story) : String := (saveStory story).text

def loadStoryText (text : String) : Loaded Story := do
  loadStory (← required (Json.ofText? text))

/-- Whether the text of a saved story loads again to the same content. -/
def reloads (story : Story) : Bool :=
  match loadStoryText (storyText story) with
  | .ok again => again.sameContent story
  | .error _ => false

/-! ## Identifiers and tokens -/

def loadCellId (value : Json) : Loaded CellId := do
  checked (CellId.ofText (← loadString value))

def loadToken (value : Json) : Loaded Token := do
  checked (Token.ofText (← loadString value))

end Gamebook.Saved
