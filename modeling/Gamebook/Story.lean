/-
# Stories

A story is a title, a directory of cells, a registry of items and the instant
at which it was compiled.  Every cell is stored under its own identifier; the
type carries that fact, so storing a cell replaces whichever cell has the same
identifier.
-/
import Gamebook.Cell
import Gamebook.Directory
import Gamebook.Registry
import Gamebook.Timestamp

namespace Gamebook

/-- Every entry of a directory of cells is under the identifier of its cell. -/
def Addressed (cells : Directory Cell) : Prop := ∀ e ∈ cells.entries, e.1 = e.2.id

structure Story where
  title : String
  cells : Directory Cell
  items : Registry
  compiledAt : Timestamp
  addressed : Addressed cells
deriving DecidableEq

namespace Story

/-- A story with a title and nothing else. -/
def empty (title : String) (compiledAt : Timestamp) : Story :=
  ⟨title, .empty, .empty, compiledAt, by simp [Addressed, Directory.empty]⟩

def cell? (story : Story) (id : CellId) : Option Cell := story.cells.find? id

/-- The cell with the identifier of a name. -/
def cellNamed? (story : Story) (name : String) : Option Cell := story.cell? (.ofName name)

def startCell? (story : Story) : Option Cell := story.cell? .start

def cellCount (story : Story) : Nat := story.cells.size

theorem addressed_insert {cells : Directory Cell} (h : Addressed cells) (cell : Cell) :
    Addressed (cells.insert cell.id cell) := fun e he => by
  rcases Entries.eq_or_mem_of_mem_insert he with rfl | he
  · rfl
  · exact h e he

/-- Store a cell under its identifier, replacing the one that has it. -/
def insertCell (story : Story) (cell : Cell) : Story :=
  { story with
    cells := story.cells.insert cell.id cell
    addressed := addressed_insert story.addressed cell }

theorem id_of_cell? {story : Story} {id : CellId} {cell : Cell} (h : story.cell? id = some cell) :
    cell.id = id :=
  (story.addressed _ (Directory.mem_of_find? h)).symm

@[simp] theorem cell?_insertCell (story : Story) (cell : Cell) (id : CellId) :
    (story.insertCell cell).cell? id = if cell.id = id then some cell else story.cell? id :=
  Directory.find?_insert ..

/-- Store a cell and answer the one it replaces. -/
def putCell (story : Story) (cell : Cell) : Option Cell × Story :=
  (story.cell? cell.id, story.insertCell cell)

/-- The same title, cells and items, whenever each was compiled. -/
def sameContent (a b : Story) : Bool :=
  a.title == b.title && a.cells == b.cells && a.items == b.items

end Story

end Gamebook
