/-
# Inventories

An inventory is a view of a registry with holdings of its own: handing an item
to one view never shows in another.
-/
import Gamebook.Registry

namespace Gamebook

/-- The items of a story together with what one reader holds. -/
structure Inventory where
  registry : Registry
  held : Holdings

namespace Inventory

def hasAll (inv : Inventory) (names : List String) : Bool := inv.registry.hasAll inv.held names

def hasAny (inv : Inventory) (names : List String) : Bool := inv.registry.hasAny inv.held names

/-- The same items with other holdings, unless the change was refused. -/
def moveTo (inv : Inventory) (next : Option Holdings) : Bool × Inventory :=
  match next with
  | some held => (true, { inv with held })
  | none => (false, inv)

/-- Add the named item; the flag says whether the holdings changed. -/
def add (inv : Inventory) (name : String) : Bool × Inventory :=
  inv.moveTo (inv.registry.give? inv.held name)

/-- Remove the named item; the flag says whether the holdings changed. -/
def remove (inv : Inventory) (name : String) : Bool × Inventory :=
  inv.moveTo (inv.registry.take? inv.held name)

def contents (inv : Inventory) : List String := inv.registry.contents inv.held

/-! ## The table of all items -/

def padLeft (width : Nat) (s : String) : String :=
  String.ofList (List.replicate (width - s.length) ' ') ++ s

def padRight (width : Nat) (s : String) : String :=
  s ++ String.ofList (List.replicate (width - s.length) ' ')

/-- The rule above and below the rows. -/
def tableRule : String := "-----+-----+------------+------------\n"

/-- The row of one item; a star marks it as held. -/
def tableRow (held : Holdings) (item : Item) : String :=
  let mark := if held.holds item then "*" else " "
  s!"  {mark}  | {padLeft 3 (toString item.bit)} | {padRight 10 item.name} | {item.description}\n"

/-- A plain table of every defined item and whether it is held, with the mask below it. -/
def table (inv : Inventory) : String :=
  " Has | Bit | Name       | Description\n" ++ tableRule ++
    String.join (inv.registry.items.map (tableRow inv.held)) ++ tableRule ++
    s!"State: {inv.held.text}\n"

end Inventory

end Gamebook
