/-
# The item registry

The items of a story in the order of their bits.  A new item takes the next
free bit and keeps it; defining a name again changes its description only.  So
in every registry the item at position `i` has bit `i`, no name occurs twice
and there are at most 64 items; the type carries these three facts.

Main statements: `firstFault?_eq_none_iff`, what the check of a loaded list
accepts, and `lookup?_eq_some_iff`, what a name finds.
-/
import Gamebook.Fault
import Gamebook.Item

namespace Gamebook

/-- The items of a story, ordered by bit. -/
structure Registry where
  items : List Item
  bits_eq : items.map Item.bit = List.range items.length
  names_nodup : (items.map Item.name).Nodup
  length_le : items.length ≤ capacity
deriving DecidableEq

namespace Registry

def empty : Registry := ⟨[], rfl, .nil, Nat.zero_le _⟩

def size (r : Registry) : Nat := r.items.length

def lookup? (r : Registry) (name : String) : Option Item :=
  r.items.find? fun item => item.name = name

def describe? (r : Registry) (name : String) : Option String :=
  (r.lookup? name).map Item.description

/-! ## Definition -/

def redescribeItems (name description : String) (items : List Item) : List Item :=
  items.map fun item => if item.name = name then { item with description } else item

theorem map_bit_redescribeItems (name description : String) (items : List Item) :
    (redescribeItems name description items).map Item.bit = items.map Item.bit := by
  simp only [redescribeItems, List.map_map]
  refine List.map_congr_left fun item _ => ?_
  by_cases h : item.name = name <;> simp [h]

theorem map_name_redescribeItems (name description : String) (items : List Item) :
    (redescribeItems name description items).map Item.name = items.map Item.name := by
  simp only [redescribeItems, List.map_map]
  refine List.map_congr_left fun item _ => ?_
  by_cases h : item.name = name <;> simp [h]

def redescribe (r : Registry) (name description : String) : Registry where
  items := redescribeItems name description r.items
  bits_eq := by
    rw [map_bit_redescribeItems, r.bits_eq]; simp [redescribeItems]
  names_nodup := by
    rw [map_name_redescribeItems]; exact r.names_nodup
  length_le := by
    simpa [redescribeItems] using r.length_le

theorem not_mem_of_lookup? {r : Registry} {name : String} (h : r.lookup? name = none) :
    name ∉ r.items.map Item.name := by
  intro hm
  obtain ⟨item, hi, rfl⟩ := List.mem_map.1 hm
  simpa using List.find?_eq_none.1 h item hi

/-- Give a new item the next free bit. -/
def append (r : Registry) (name description : String) (fresh : r.lookup? name = none)
    (room : r.size < capacity) : Registry where
  items := r.items ++ [⟨name, r.size, description⟩]
  bits_eq := by
    simp [r.bits_eq, List.range_succ, size]
  names_nodup := by
    rw [List.map_append, List.nodup_append]
    refine ⟨r.names_nodup, by simp, fun a ha b hb => ?_⟩
    have hb : b = name := by simpa using hb
    exact fun e => not_mem_of_lookup? fresh (hb ▸ e ▸ ha)
  length_le := by
    simpa [size] using Nat.succ_le_of_lt room

/-- Define an item, or change the description of an existing one.  Answers the item as it is
afterwards together with the new registry. -/
def define (r : Registry) (name description : String) : Except Fault (Item × Registry) :=
  match h : r.lookup? name with
  | some item => .ok ({ item with description }, r.redescribe name description)
  | none =>
      if room : r.size < capacity then
        .ok (⟨name, r.size, description⟩, r.append name description h room)
      else .error (.registryFull name)

/-! ## Loading -/

/-- The first fault of a list that is sorted by bit, read from a position on, where `seen` are
the names at earlier positions.  At one position a wrong bit is reported before a repeated
name. -/
def firstFault? (position : Nat) (seen : List String) : List Item → Option LayoutFault
  | [] => none
  | item :: rest =>
      if item.bit ≠ position then some (.wrongBit item.name item.bit position)
      else if item.name ∈ seen then some (.definedTwice item.name)
      else firstFault? (position + 1) (item.name :: seen) rest

/-- The check finds no fault exactly in consecutive bits and distinct new names. -/
theorem firstFault?_eq_none_iff {position : Nat} {seen : List String} {items : List Item} :
    firstFault? position seen items = none ↔
      items.map Item.bit = List.range' position items.length ∧
        (items.map Item.name).Nodup ∧ ∀ item ∈ items, item.name ∉ seen := by
  induction items generalizing position seen with
  | nil => simp [firstFault?]
  | cons item rest ih =>
    rw [firstFault?]
    by_cases hb : item.bit = position
    · by_cases hs : item.name ∈ seen
      · simp [hb, hs]
      · simp only [hb, ne_eq, not_true_eq_false, if_false, hs, ih, List.map_cons,
          List.length_cons, List.range'_succ, List.cons.injEq, true_and, List.nodup_cons,
          List.mem_map, List.mem_cons, not_or, forall_eq_or_imp, not_false_eq_true]
        constructor
        · rintro ⟨h₁, h₂, h₃⟩
          exact ⟨h₁, ⟨fun ⟨x, hx, e⟩ => (h₃ x hx).1 e, h₂⟩, fun x hx => (h₃ x hx).2⟩
        · rintro ⟨h₁, ⟨h₂, h₃⟩, h₄⟩
          exact ⟨h₁, h₃, fun x hx => ⟨fun e => h₂ ⟨x, hx, e⟩, h₄ x hx⟩⟩
    · simp [hb, List.range'_succ]

/-- A list of items in the order of their bits; equal bits keep their order. -/
def sortByBit (items : List Item) : List Item :=
  items.mergeSort fun a b => a.bit ≤ b.bit

/-- Rebuild a registry from a list of items in any order. -/
def ofItems (items : List Item) : Except Fault Registry :=
  if room : items.length ≤ capacity then
    match h : firstFault? 0 [] (sortByBit items) with
    | some fault => .error (.invalidLayout fault)
    | none => .ok {
        items := sortByBit items
        bits_eq := List.range_eq_range' ▸ (firstFault?_eq_none_iff.1 h).1
        names_nodup := (firstFault?_eq_none_iff.1 h).2.1
        length_le := by simpa [sortByBit] using room }
  else .error (.invalidLayout (.tooMany items.length))

/-! ## Names -/

theorem name_eq_of_lookup? {r : Registry} {name : String} {item : Item}
    (h : r.lookup? name = some item) : item.name = name := by
  simpa using List.find?_some h

/-- Among items of distinct names a search by name stops at the item sought. -/
theorem find?_name_of_mem {items : List Item} (hn : (items.map Item.name).Nodup) {item : Item}
    (hm : item ∈ items) : (items.find? fun x => x.name = item.name) = some item := by
  induction items with
  | nil => simp at hm
  | cons x xs ih =>
    obtain ⟨hx, hxs⟩ := List.nodup_cons.1 hn
    rcases List.mem_cons.1 hm with rfl | hm
    · simp
    · have hne : x.name ≠ item.name := fun e => hx (e ▸ List.mem_map_of_mem hm)
      simpa [List.find?_cons, hne] using ih hxs hm

/-- A name finds the item that bears it. -/
theorem lookup?_eq_some_iff {r : Registry} {name : String} {item : Item} :
    r.lookup? name = some item ↔ item ∈ r.items ∧ item.name = name := by
  constructor
  · exact fun h => ⟨List.mem_of_find?_eq_some h, name_eq_of_lookup? h⟩
  · rintro ⟨hm, rfl⟩
    exact find?_name_of_mem r.names_nodup hm

/-! ## Questions about holdings -/

/-- Every named item is defined and held. -/
def hasAll (r : Registry) (held : Holdings) (names : List String) : Bool :=
  names.all fun name => (r.lookup? name).any held.holds

/-- Some named item is defined and held. -/
def hasAny (r : Registry) (held : Holdings) (names : List String) : Bool :=
  (names.filterMap r.lookup?).any held.holds

/-- Hand over the named item; refused if it is undefined or already held. -/
def give? (r : Registry) (held : Holdings) (name : String) : Option Holdings :=
  match r.lookup? name with
  | none => none
  | some item => if held.holds item then none else some (held.insert item)

/-- Take the named item away; refused if it is undefined or not held. -/
def take? (r : Registry) (held : Holdings) (name : String) : Option Holdings :=
  match r.lookup? name with
  | none => none
  | some item => if held.holds item then some (held.erase item) else none

/-- The descriptions of the held items in the order of their bits, empty ones left out. -/
def contents (r : Registry) (held : Holdings) : List String :=
  (r.items.filter fun item => held.holds item && item.description != "").map Item.description

end Registry

end Gamebook
