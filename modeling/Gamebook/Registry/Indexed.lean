/-
# Indexed registries

A registry as it is kept while a story is made: the items in the order of their
bits, and beside them an index from names to places.  Names are sought in the
index alone, and the item at a place found there is read without a check.
Definitions extend the index by one entry; loading sorts the items and enters
them all anew.  Nothing in the type makes the two agree.
-/
import Gamebook.Registry

namespace Gamebook

instance : Inhabited Item := ⟨⟨"", 0, ""⟩⟩

/-- Items with the places of their names; an entry in front hides those behind it. -/
structure IndexedRegistry where
  items : List Item
  slots : List (String × Nat)

namespace IndexedRegistry

/-- Registries are compared by their items alone. -/
instance : BEq IndexedRegistry := ⟨fun r r' => r.items == r'.items⟩

def empty : IndexedRegistry := ⟨[], []⟩

def lookup? (r : IndexedRegistry) (name : String) : Option Item :=
  (r.slots.lookup name).map fun slot => r.items[slot]!

def describe? (r : IndexedRegistry) (name : String) : Option String :=
  (r.lookup? name).map Item.description

/-! ## Definition -/

/-- Give the item at a place another description. -/
def redescribeAt (r : IndexedRegistry) (slot : Nat) (description : String) : IndexedRegistry :=
  { r with items := r.items.modify slot fun item => { item with description } }

/-- Put an item behind the others and enter its name.  A bit is kept in one byte. -/
def push (r : IndexedRegistry) (name description : String) : IndexedRegistry where
  items := r.items ++ [⟨name, (UInt8.ofNat r.items.length).toNat, description⟩]
  slots := (name, r.items.length) :: r.slots

/-- Define an item, or change the description of an existing one.  Answers the item as it is
afterwards, or why it was refused; the registry after it stands beside either answer. -/
def define (r : IndexedRegistry) (name description : String) :
    Except Fault Item × IndexedRegistry :=
  match r.slots.lookup name with
  | some slot =>
      let next := r.redescribeAt slot description
      (.ok next.items[slot]!, next)
  | none =>
      if capacity ≤ r.items.length then (.error (.registryFull name), r)
      else
        let next := r.push name description
        (.ok next.items[r.items.length]!, next)

/-! ## Loading -/

/-- Enter the names of items from a place on.  At one place a wrong bit is reported before a
name that has been entered already. -/
def enter (slots : List (String × Nat)) (slot : Nat) :
    List Item → Except LayoutFault (List (String × Nat))
  | [] => .ok slots
  | item :: rest =>
      if item.bit ≠ slot then .error (.wrongBit item.name item.bit slot)
      else
        match slots.lookup item.name with
        | some _ => .error (.definedTwice item.name)
        | none => enter ((item.name, slot) :: slots) (slot + 1) rest

/-- Rebuild a registry from a list of items in any order. -/
def ofItems (items : List Item) : Except Fault IndexedRegistry :=
  if capacity < items.length then .error (.invalidLayout (.tooMany items.length))
  else
    let sorted := Registry.sortByBit items
    match enter [] 0 sorted with
    | .error fault => .error (.invalidLayout fault)
    | .ok slots => .ok ⟨sorted, slots⟩

/-! ## Questions about holdings -/

def hasAll (r : IndexedRegistry) (held : Holdings) (names : List String) : Bool :=
  names.all fun name => (r.lookup? name).any held.holds

def hasAny (r : IndexedRegistry) (held : Holdings) (names : List String) : Bool :=
  (names.filterMap r.lookup?).any held.holds

def give? (r : IndexedRegistry) (held : Holdings) (name : String) : Option Holdings :=
  match r.lookup? name with
  | none => none
  | some item => if held.holds item then none else some (held.insert item)

def take? (r : IndexedRegistry) (held : Holdings) (name : String) : Option Holdings :=
  match r.lookup? name with
  | none => none
  | some item => if held.holds item then some (held.erase item) else none

def contents (r : IndexedRegistry) (held : Holdings) : List String :=
  (r.items.filter fun item => held.holds item && item.description != "").map Item.description

end IndexedRegistry

end Gamebook
