/-
# A registry defined in two parts

Definitions go on behind others.  The names of the first part keep their bits, those
that the second part adds come behind them in the order in which the second part
alone would have them, and a name that both parts define is described by the second.

Main statements: `names_append`, `describe?_append`; `length_joinedNames`, the names
of two registries counted together.
-/
import Gamebook.Proofs.Registry.Definitions
import Mathlib.Data.Finset.Card
import Mathlib.Data.List.Induction

namespace Gamebook.Registry

def names (r : Registry) : List String := r.items.map Item.name

/-- The names of a registry and behind them those that another one has in addition. -/
def joinedNames (r r' : Registry) : List String :=
  r.names ++ r'.names.filter fun name => name ∉ r.names

/-- Joined, two registries have each of their names once. -/
theorem length_joinedNames (r r' : Registry) :
    (joinedNames r r').length = (r.names.toFinset ∪ r'.names.toFinset).card := by
  have hnodup : (joinedNames r r').Nodup := by
    refine List.Nodup.append r.names_nodup (r'.names_nodup.filter _) fun name h h' => ?_
    exact absurd h (by simpa using (List.mem_filter.mp h').2)
  rw [← List.toFinset_card_of_nodup hnodup]
  congr 1
  ext name
  simp only [joinedNames, List.mem_toFinset, List.mem_append, List.mem_filter, Finset.mem_union]
  by_cases h : name ∈ r.names <;> simp [h]

/-- Names that were defined before keep their places, new ones follow in their own order. -/
theorem definedNames_append (ds ds' : List (String × String)) :
    definedNames (ds ++ ds') =
      definedNames ds ++ (definedNames ds').filter fun name => name ∉ definedNames ds := by
  induction ds' using List.reverseRecOn with
  | nil => rw [List.append_nil]; exact (List.append_nil _).symm
  | append_singleton ds' d ih =>
      obtain ⟨name, description⟩ := d
      rw [← List.append_assoc, definedNames_concat, definedNames_concat, ih]
      by_cases hold : name ∈ definedNames ds
      · by_cases hnew : name ∈ definedNames ds' <;> simp [hold, hnew]
      · by_cases hnew : name ∈ definedNames ds' <;> simp [hold, hnew]

/-- A name is described by its last definition. -/
theorem describe?_of_items {r : Registry} {ds : List (String × String)} (h : r.items = itemsOf ds)
    (name : String) :
    r.describe? name = (ds.reverse.find? fun d => d.1 = name).map Prod.snd := by
  cases hl : r.lookup? name with
  | none =>
      have hnone : (ds.reverse.find? fun d => d.1 = name) = none := by
        refine List.find?_eq_none.mpr fun d hd => ?_
        rw [lookup?_eq_none_iff, h, map_name_itemsOf, mem_definedNames] at hl
        simpa using fun e : d.1 = name =>
          hl (List.mem_map.mpr ⟨d, List.mem_reverse.mp hd, e⟩)
      rw [describe?, hl, hnone]
      rfl
  | some item =>
      obtain ⟨hitem, rfl⟩ := lookup?_eq_some_iff.mp hl
      have hname : item.name ∈ ds.map Prod.fst := by
        rw [← mem_definedNames, ← map_name_itemsOf, ← h]
        exact List.mem_map_of_mem hitem
      have hdescription : item.description = lastDescription ds item.name := by
        rw [h, itemsOf, List.mem_mapIdx] at hitem
        obtain ⟨i, hi, rfl⟩ := hitem
        rfl
      obtain ⟨d, hd, hd'⟩ := List.mem_map.mp hname
      have hsome : (ds.reverse.find? fun d => d.1 = item.name).isSome := by
        rw [List.find?_isSome]
        exact ⟨d, List.mem_reverse.mpr hd, by simpa using hd'⟩
      obtain ⟨last, hlast⟩ := Option.isSome_iff_exists.mp hsome
      rw [describe?, hl, hlast, Option.map_some, hdescription, lastDescription, hlast]
      rfl

/-- What is defined anew is described anew. -/
theorem describe?_append {r r' joined : Registry} {ds ds' : List (String × String)}
    (h : r.items = itemsOf ds) (h' : r'.items = itemsOf ds')
    (hjoined : joined.items = itemsOf (ds ++ ds')) (name : String) :
    joined.describe? name = (r'.describe? name).or (r.describe? name) := by
  rw [describe?_of_items h, describe?_of_items h', describe?_of_items hjoined, List.reverse_append,
    List.find?_append, Option.map_or]

theorem names_of_items {r : Registry} {ds : List (String × String)} (h : r.items = itemsOf ds) :
    r.names = definedNames ds := by
  rw [names, h, map_name_itemsOf]

theorem names_append {r r' joined : Registry} {ds ds' : List (String × String)}
    (h : r.items = itemsOf ds) (h' : r'.items = itemsOf ds')
    (hjoined : joined.items = itemsOf (ds ++ ds')) : joined.names = joinedNames r r' := by
  rw [names_of_items hjoined, joinedNames, names_of_items h, names_of_items h',
    definedNames_append]

end Gamebook.Registry
