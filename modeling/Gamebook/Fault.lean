/-
# What can be wrong with a story

The faults that story data and story text can have, each with the one sentence
that reports it.  A fault carries the pieces of the offending data, so that the
sentence is a function of the fault alone.
-/
import Gamebook.CellId
import Gamebook.Text.Quoted

namespace Gamebook

/-- The number of distinct items a story may define: one for each bit of a state. -/
def capacity : Nat := 64

/-- Why a list of items is no registry. -/
inductive LayoutFault where
  /-- More items than a state has bits. -/
  | tooMany (count : Nat)
  /-- Sorted by bit, the item at a position has another bit. -/
  | wrongBit (name : String) (bit position : Nat)
  /-- The name was met at an earlier position. -/
  | definedTwice (name : String)
deriving DecidableEq

def LayoutFault.message : LayoutFault → String
  | .tooMany count => s!"{count} items, at most {capacity} fit"
  | .wrongBit name bit position =>
      s!"item {Text.quoted name} has bit {bit}, expected {position}"
  | .definedTwice name => s!"item {Text.quoted name} is defined twice"

/-- Why a text is no navigation token. -/
inductive TokenFault where
  /-- Fewer than eight bytes, or the eighth byte lies inside a character. -/
  | short
  /-- The first eight bytes are not base-sixteen digits. -/
  | notHex
  /-- The number that follows is 2⁶⁴ or more. -/
  | tooLarge
deriving DecidableEq

def TokenFault.message : TokenFault → String
  | .short => "shorter than a cell identifier"
  | .notHex => "cell identifier is not hexadecimal"
  | .tooLarge => "inventory state does not fit in 64 bits"

/-- A fault of a story or of a text that points into one. -/
inductive Fault where
  /-- A new item was named while all bits are taken. -/
  | registryFull (name : String)
  | invalidLayout (fault : LayoutFault)
  /-- A cell is stored under an identifier that is not that of its name. -/
  | misaddressedCell (name : String) (stored expected : CellId)
  | invalidId (text : String)
  | invalidToken (text : String) (fault : TokenFault)
deriving DecidableEq

def Fault.message : Fault → String
  | .registryFull name =>
      s!"cannot define item {Text.quoted name}: all {capacity} inventory slots are taken"
  | .invalidLayout fault => s!"invalid item registry: {fault.message}"
  | .misaddressedCell name stored expected =>
      s!"cell {Text.quoted name} is stored under {stored.text}, expected {expected.text}"
  | .invalidId text =>
      s!"invalid cell identifier {Text.quoted text}: expected 8 hexadecimal digits"
  | .invalidToken text fault =>
      s!"invalid navigation token {Text.quoted text}: {fault.message}"

/-- Read a cell identifier, or say that the text is none. -/
def CellId.ofText (s : String) : Except Fault CellId :=
  match CellId.ofText? s with
  | some id => .ok id
  | none => .error (.invalidId s)

end Gamebook
