/-
# Saved registries

A registry is saved as the list of its items in the order of their bits.
-/
import Gamebook.Registry
import Gamebook.Saved.Value

namespace Gamebook.Saved

def saveItem (item : Item) : Json :=
  .obj [("name", .str item.name), ("bit_index", .int item.bit),
    ("description", .str item.description)]

/-- The fields of an item read so far. -/
structure ItemParts where
  name : Option String
  bit : Option Nat
  description : Option String

def ItemParts.set (p : ItemParts) (name : String) (value : Json) : Loaded ItemParts :=
  match name with
  | "name" => (loadString value).map fun s => { p with name := some s }
  | "bit_index" => (loadByte value).map fun n => { p with bit := some n }
  | "description" => (loadString value).map fun s => { p with description := some s }
  | _ => .ok p

def loadItem (value : Json) : Loaded Item := do
  let p ← loadRecord ["name", "bit_index", "description"] ItemParts.set ⟨none, none, none⟩ value
  return ⟨← required p.name, ← required p.bit, ← required p.description⟩

def saveRegistry (r : Registry) : Json := .arr (r.items.map saveItem)

/-- Read a registry from a list of items in any order. -/
def loadRegistry (value : Json) : Loaded Registry := do
  checked (Registry.ofItems (← loadList loadItem value))

end Gamebook.Saved
