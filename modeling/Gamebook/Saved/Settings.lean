/-
# Saved page settings

Settings are saved as a record of data or as a TOML document.  In both a field
that is left out has its default and unknown fields are passed over.
-/
import Gamebook.Page.Settings
import Gamebook.Saved.Value
import Gamebook.Toml.Reading

namespace Gamebook.Saved

open Page (Settings)

def settingNames : List String :=
  ["link_prefix", "broken_link_class", "broken_link_placeholder", "inventory_list_id",
    "cell_comment"]

def setSetting (s : Settings) (name : String) (value : Json) : Loaded Settings :=
  match name with
  | "link_prefix" => (loadString value).map fun x => { s with linkLead := x }
  | "broken_link_class" => (loadString value).map fun x => { s with brokenClass := x }
  | "broken_link_placeholder" => (loadString value).map fun x => { s with brokenText := x }
  | "inventory_list_id" => (loadString value).map fun x => { s with inventoryId := x }
  | "cell_comment" => (loadBool value).map fun x => { s with cellComment := x }
  | _ => .ok s

def loadSettings (value : Json) : Loaded Settings :=
  loadRecord settingNames setSetting .default value

/-- Set one field from its value in a document; `none` if the value is of another kind. -/
def setWritten? (s : Settings) (key : String) (value : Toml) : Option Settings :=
  match key, value with
  | "link_prefix", .string x => some { s with linkLead := x }
  | "broken_link_class", .string x => some { s with brokenClass := x }
  | "broken_link_placeholder", .string x => some { s with brokenText := x }
  | "inventory_list_id", .string x => some { s with inventoryId := x }
  | "cell_comment", .boolean x => some { s with cellComment := x }
  | key, _ => if key ∈ settingNames then none else some s

/-- Read settings from the text of a document. -/
def loadSettingsText? (source : String) : Option Settings := do
  (← Toml.ofText? source).foldlM (fun s e => setWritten? s e.1 e.2) .default

end Gamebook.Saved
