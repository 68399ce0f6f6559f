/-
# TOML documents

The values of a TOML document and the two ways in which its tables grow: a
header opens a table at a path, and an assignment puts a value at a path of
dotted keys.  No key is given a value twice, and a table is never opened after
it has been written in another way; each table remembers how it came to be,
which decides what may still be done to it.
-/

namespace Gamebook

/-- How a table came to be. -/
inductive Toml.Origin where
  /-- Opened by a header of its own. -/
  | header
  /-- Named on the way to a longer header. -/
  | passing
  /-- Named on the way by dotted keys. -/
  | dotted
deriving DecidableEq

/-- A TOML value.  Numbers other than integers, dates and times keep their written form. -/
inductive Toml where
  | string (s : String)
  | integer (n : Int)
  | float (literal : String)
  | boolean (b : Bool)
  | datetime (literal : String)
  | array (items : List Toml)
  /-- A table written as a value, which is complete as it stands. -/
  | inline (entries : List (String × Toml))
  | table (origin : Toml.Origin) (entries : List (String × Toml))
  /-- An array of tables; headers open the elements one after the other. -/
  | tables (elements : List (List (String × Toml)))

namespace Toml

abbrev Entries := List (String × Toml)

def lookup? (entries : Entries) (key : String) : Option Toml :=
  (entries.find? fun e => e.1 = key).map Prod.snd

/-- Give a new value to a key that has one. -/
def replace (entries : Entries) (key : String) (value : Toml) : Entries :=
  entries.map fun e => if e.1 = key then (key, value) else e

/-! ## Reaching a table -/

/-- Change the table at the end of a path, making the tables on the way that are not there yet.
On the way through an array of tables its last element counts.  A path of dotted keys does not
lead into a table that has a header. -/
def alter? (dotted : Bool) (change? : Origin → Entries → Option Entries) :
    List String → Origin → Entries → Option Entries
  | [], origin, entries => change? origin entries
  | key :: path, _, entries =>
      match lookup? entries key with
      | none =>
          let origin := if dotted then Origin.dotted else .passing
          (alter? dotted change? path origin []).map fun inner =>
            entries ++ [(key, .table origin inner)]
      | some (.table origin inner) =>
          if dotted ∧ origin = .header then none
          else
            (alter? dotted change? path origin inner).map fun inner =>
              replace entries key (.table origin inner)
      | some (.tables elements) =>
          match elements.getLast? with
          | none => none
          | some last =>
              (alter? dotted change? path .header last).map fun last =>
                replace entries key (.tables (elements.dropLast ++ [last]))
      | some _ => none

/-! ## Statements -/

def addKey? (key : String) (value : Toml) (entries : Entries) : Option Entries :=
  match lookup? entries key with
  | none => some (entries ++ [(key, value)])
  | some _ => none

/-- Put a value under the last of several dotted keys.  The table that takes it must have been
made by dotted keys itself, unless the key is not dotted. -/
def assign? (path : List String) (key : String) (value : Toml) (entries : Entries) :
    Option Entries :=
  alter? true
    (fun origin inner =>
      if path.isEmpty ∨ origin = .dotted then addKey? key value inner else none)
    path .header entries

/-- Open a table by its header.  Only a table named in passing so far may be there already. -/
def openTable? (path : List String) (key : String) (entries : Entries) : Option Entries :=
  alter? false
    (fun _ inner =>
      match lookup? inner key with
      | none => some (inner ++ [(key, .table .header [])])
      | some (.table .passing already) => some (replace inner key (.table .header already))
      | some _ => none)
    path .header entries

/-- Open a further element of an array of tables by its header. -/
def openElement? (path : List String) (key : String) (entries : Entries) : Option Entries :=
  alter? false
    (fun _ inner =>
      match lookup? inner key with
      | none => some (inner ++ [(key, .tables [[]])])
      | some (.tables elements) => some (replace inner key (.tables (elements ++ [[]])))
      | some _ => none)
    path .header entries

/-- One statement of a document.  A key with dots is its last part and the path of the others. -/
inductive Statement where
  | tableHeader (path : List String) (key : String)
  | elementHeader (path : List String) (key : String)
  | assignment (path : List String) (key : String) (value : Toml)

/-- A document in the making: its entries and the path of the table opened last. -/
structure Draft where
  entries : Entries
  current : List String

/-- Act on a statement; `none` if it contradicts an earlier one. -/
def Draft.apply? (draft : Draft) : Statement → Option Draft
  | .tableHeader path key =>
      (openTable? path key draft.entries).map fun entries => ⟨entries, path ++ [key]⟩
  | .elementHeader path key =>
      (openElement? path key draft.entries).map fun entries => ⟨entries, path ++ [key]⟩
  | .assignment path key value =>
      (alter? false (fun _ inner => assign? path key value inner) draft.current .header
          draft.entries).map fun entries => { draft with entries }

end Toml

end Gamebook
