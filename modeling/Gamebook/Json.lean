/-
# JSON values

The data in which stories are saved.  An integer literal that fits in 64 bits,
with or without sign, is kept as the number it is; every other number keeps its
written form, since nothing here counts with it.  An object keeps its fields as
they were written.
-/

namespace Gamebook

inductive Json where
  | null
  | bool (b : Bool)
  | int (n : Int)
  /-- A number that is not a 64-bit integer, as written. -/
  | real (literal : String)
  | str (s : String)
  | arr (items : List Json)
  | obj (fields : List (String × Json))

namespace Json

/-! ## Fields by name -/

/-- Put a field in its place by name, replacing the one of the same name. -/
def insertField (name : String) (value : Json) : List (String × Json) → List (String × Json)
  | [] => [(name, value)]
  | f :: rest =>
      if name < f.1 then (name, value) :: f :: rest
      else if name = f.1 then (name, value) :: rest
      else f :: insertField name value rest

/-- The fields in ascending order of their names; of two with one name the later stays. -/
def sortFields (fields : List (String × Json)) : List (String × Json) :=
  fields.foldl (fun sorted f => insertField f.1 f.2 sorted) []

/-- The value of the last field of a name. -/
def field? (value : Json) (name : String) : Option Json :=
  match value with
  | obj fields => (fields.reverse.find? fun f => f.1 = name).map Prod.snd
  | _ => none

end Json

end Gamebook
