/-
# Values of saved data

How strings, lists and records are read from JSON.  A record is saved as an
object; the reader also takes a list of its values in the order of its fields.
Unknown fields are passed over, and the known ones are set one after the other
in ascending order of their names, so that of two faults the earlier in this
order is reported.
-/
import Gamebook.Fault
import Gamebook.Json

namespace Gamebook.Saved

inductive LoadError where
  /-- A value of the wrong kind, or a field missing. -/
  | malformed
  /-- The data has the right shape and breaks a rule of stories. -/
  | fault (fault : Fault)
deriving DecidableEq

abbrev Loaded (α : Type) := Except LoadError α

def required {α : Type} : Option α → Loaded α
  | some x => .ok x
  | none => .error .malformed

/-- A fault of stories as an error of loading. -/
def checked {α : Type} : Except Fault α → Loaded α
  | .ok x => .ok x
  | .error f => .error (.fault f)

def loadString : Json → Loaded String
  | .str s => .ok s
  | _ => .error .malformed

/-- A string, or `null` for none. -/
def loadOptional : Json → Loaded (Option String)
  | .null => .ok none
  | .str s => .ok (some s)
  | _ => .error .malformed

def loadBool : Json → Loaded Bool
  | .bool b => .ok b
  | _ => .error .malformed

/-- An integer below 256. -/
def loadByte : Json → Loaded Nat
  | .int n => if 0 ≤ n ∧ n < 256 then .ok n.toNat else .error .malformed
  | _ => .error .malformed

/-- A list, each item read in turn. -/
def loadList {α : Type} (load : Json → Loaded α) : Json → Loaded (List α)
  | .arr items => items.mapM load
  | _ => .error .malformed

/-- The fields of a record with the given field names, in the order in which they are set. -/
def recordFields (names : List String) : Json → Loaded (List (String × Json))
  | .obj fields => .ok (Json.sortFields fields)
  | .arr items => .ok (names.zip items)
  | _ => .error .malformed

/-- Whether a list of values is longer than the record has fields. -/
def hasExcess (names : List String) : Json → Bool
  | .arr items => names.length < items.length
  | _ => false

/-- Read a record by setting its fields in a value that has none of them yet. -/
def loadRecord {α : Type} (names : List String) (set : α → String → Json → Loaded α)
    (unset : α) (value : Json) : Loaded α := do
  let parts ← (← recordFields names value).foldlM (fun parts f => set parts f.1 f.2) unset
  if hasExcess names value then .error .malformed else .ok parts

/-- A field of a saved record, left out if the text is empty. -/
def textField (name text : String) : List (String × Json) :=
  if text = "" then [] else [(name, .str text)]

/-- A field of a saved record, left out if there is no text. -/
def optionalField (name : String) (text : Option String) : List (String × Json) :=
  (text.map fun s => (name, .str s)).toList

/-- A field of a saved record, left out if the list is empty. -/
def namesField (name : String) (names : List String) : List (String × Json) :=
  if names.isEmpty then [] else [(name, .arr (names.map .str))]

end Gamebook.Saved
