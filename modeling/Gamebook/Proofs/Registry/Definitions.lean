/-
# A registry built by definitions

Definitions come as names with descriptions.  However often a name comes, it
has one item: its bit is the number of distinct names in front of its first
definition, its description is that of its last.

Main statements: `define_cases`, all that one definition can do, and
`kept_of_define`, what it leaves; `exists_defineAll?_iff` and
`items_of_defineAll?`, which definitions an empty registry takes in and what it
holds afterwards.
-/
import Gamebook.Registry

namespace Gamebook.Registry

/-! ## The items that definitions make -/

/-- The distinct names defined, in the order of their first definitions. -/
def definedNames (ds : List (String × String)) : List String := (ds.map Prod.fst).eraseDups

/-- The description given last to a name. -/
def lastDescription (ds : List (String × String)) (name : String) : String :=
  ((ds.reverse.find? fun d => d.1 = name).map Prod.snd).getD ""

/-- One item for each name, with the bit of its place. -/
def itemsOf (ds : List (String × String)) : List Item :=
  (definedNames ds).mapIdx fun bit name => ⟨name, bit, lastDescription ds name⟩

/-- Define items in order; `none` if one is refused. -/
def defineAll? (r : Registry) (ds : List (String × String)) : Option Registry :=
  ds.foldlM (fun r d => (r.define d.1 d.2).toOption.map Prod.snd) r

theorem mem_definedNames {ds : List (String × String)} {name : String} :
    name ∈ definedNames ds ↔ name ∈ ds.map Prod.fst := List.mem_eraseDups

@[simp] theorem length_itemsOf (ds : List (String × String)) :
    (itemsOf ds).length = (definedNames ds).length := by simp [itemsOf]

theorem map_name_itemsOf (ds : List (String × String)) :
    (itemsOf ds).map Item.name = definedNames ds := by
  refine List.ext_getElem? fun i => ?_
  cases h : (definedNames ds)[i]? <;> simp [itemsOf, h]

/-! ## One more definition -/

/-- A name that was there before leaves the order as it is, a new one goes to its end. -/
theorem definedNames_concat (ds : List (String × String)) (name description : String) :
    definedNames (ds ++ [(name, description)]) =
      if name ∈ definedNames ds then definedNames ds else definedNames ds ++ [name] := by
  simp only [mem_definedNames]
  by_cases h : name ∈ ds.map Prod.fst
  · simp [definedNames, List.eraseDups_append, List.removeAll, h]
  · simp [definedNames, List.eraseDups_append, List.removeAll, h, List.eraseDups_cons]

theorem lastDescription_concat (ds : List (String × String)) (name description name' : String) :
    lastDescription (ds ++ [(name, description)]) name' =
      if name = name' then description else lastDescription ds name' := by
  by_cases h : name = name' <;> simp [lastDescription, h]

theorem length_definedNames_append_le (ds ds' : List (String × String)) :
    (definedNames ds).length ≤ (definedNames (ds ++ ds')).length := by
  simp [definedNames, List.eraseDups_append]

/-- A repeated name changes one description. -/
theorem itemsOf_concat_of_mem {ds : List (String × String)} {name : String}
    (h : name ∈ definedNames ds) (description : String) :
    itemsOf (ds ++ [(name, description)]) = redescribeItems name description (itemsOf ds) := by
  refine List.ext_getElem? fun i => ?_
  simp only [itemsOf, redescribeItems, definedNames_concat, if_pos h, List.getElem?_map,
    List.getElem?_mapIdx, Option.map_map, lastDescription_concat]
  cases hi : (definedNames ds)[i]? with
  | none => rfl
  | some other =>
      by_cases hn : name = other
      · simp [hn]
      · have hn' : ¬other = name := fun e => hn e.symm
        simp [hn, hn']

/-- A new name makes one more item and changes none. -/
theorem itemsOf_concat_of_not_mem {ds : List (String × String)} {name : String}
    (h : name ∉ definedNames ds) (description : String) :
    itemsOf (ds ++ [(name, description)]) =
      itemsOf ds ++ [⟨name, (itemsOf ds).length, description⟩] := by
  have hold : ∀ other ∈ definedNames ds,
      lastDescription (ds ++ [(name, description)]) other = lastDescription ds other := by
    intro other ho
    rw [lastDescription_concat, if_neg fun e : name = other => h (e ▸ ho)]
  rw [itemsOf, definedNames_concat, if_neg h, List.mapIdx_concat, length_itemsOf,
    lastDescription_concat, if_pos rfl, itemsOf]
  congr 1
  refine List.ext_getElem? fun i => ?_
  simp only [List.getElem?_mapIdx]
  cases hi : (definedNames ds)[i]? with
  | none => rfl
  | some other => simp [hold other (List.mem_of_getElem? hi)]

/-! ## What a definition does -/

/-- All that a definition can do: describe anew, add, or refuse for want of a bit. -/
theorem define_cases (r : Registry) (name description : String) :
    (∃ item, r.lookup? name = some item ∧
      r.define name description = .ok ({ item with description }, r.redescribe name description)) ∨
    (∃ (fresh : r.lookup? name = none) (room : r.size < capacity),
      r.define name description =
        .ok (⟨name, r.size, description⟩, r.append name description fresh room)) ∨
    (r.lookup? name = none ∧ capacity ≤ r.size ∧
      r.define name description = .error (.registryFull name)) := by
  unfold define
  split
  next item h => exact Or.inl ⟨item, h, rfl⟩
  next h =>
      by_cases room : r.size < capacity
      · exact Or.inr (Or.inl ⟨h, room, by rw [dif_pos room]⟩)
      · exact Or.inr (Or.inr ⟨h, Nat.le_of_not_lt room, by rw [dif_neg room]⟩)

theorem lookup?_eq_none_iff {r : Registry} {name : String} :
    r.lookup? name = none ↔ name ∉ r.items.map Item.name := by
  constructor
  · exact not_mem_of_lookup?
  · intro h
    refine List.find?_eq_none.mpr fun item hi => ?_
    simpa using fun e => h (List.mem_map.mpr ⟨item, hi, e⟩)

/-- A definition is refused exactly when the name is new and every bit is taken. -/
theorem exists_define_eq_error_iff (r : Registry) (name description : String) :
    (∃ fault, r.define name description = .error fault) ↔
      r.lookup? name = none ∧ r.size = capacity := by
  rcases define_cases r name description with ⟨item, h, hd⟩ | ⟨h, room, hd⟩ | ⟨h, full, hd⟩
  · simp [hd, h]
  · simp [hd, Nat.ne_of_lt room]
  · simp [hd, h, Nat.le_antisymm r.length_le full, size]

/-- What a definition leaves: the item as it was defined, and every item in its place, described
anew only if it is the one. -/
theorem kept_of_define {r next : Registry} {name description : String} {item : Item}
    (h : r.define name description = .ok (item, next)) :
    (item ∈ next.items ∧ item.name = name ∧ item.description = description) ∧
      ∀ (i : Nat) (old : Item), r.items[i]? = some old →
        ∃ new : Item, next.items[i]? = some new ∧ new.name = old.name ∧ new.bit = old.bit ∧
          (old.name ≠ name → new.description = old.description) := by
  rcases define_cases r name description with ⟨found, hl, hd⟩ | ⟨fresh, room, hd⟩ | ⟨-, -, hd⟩
  · obtain ⟨rfl, rfl⟩ := Prod.mk.inj (Except.ok.inj (h.symm.trans hd))
    obtain ⟨hfound, hname⟩ := lookup?_eq_some_iff.mp hl
    constructor
    · refine ⟨?_, hname, rfl⟩
      exact List.mem_map.mpr ⟨found, hfound, by rw [if_pos hname]⟩
    · intro i old hi
      refine ⟨if old.name = name then { old with description } else old, ?_, ?_⟩
      · show (redescribeItems name description r.items)[i]? = _
        rw [redescribeItems, List.getElem?_map, hi]
        rfl
      · by_cases hn : old.name = name <;> simp [hn]
  · obtain ⟨rfl, rfl⟩ := Prod.mk.inj (Except.ok.inj (h.symm.trans hd))
    constructor
    · exact ⟨List.mem_concat_self, rfl, rfl⟩
    · intro i old hi
      refine ⟨old, ?_, rfl, rfl, fun _ => rfl⟩
      have hlt : i < r.items.length := (List.getElem?_eq_some_iff.mp hi).1
      show (r.items ++ [_])[i]? = some old
      rw [List.getElem?_append_left hlt, hi]
  · exact absurd (h.symm.trans hd) (by simp)

/-- The step: a registry that holds what `ds` makes holds what `ds` and one more make, unless the
name is new and no bit is left. -/
theorem define_itemsOf {r : Registry} {ds : List (String × String)} (hr : r.items = itemsOf ds)
    (name description : String) :
    (∃ item r', r.define name description = .ok (item, r') ∧
      r'.items = itemsOf (ds ++ [(name, description)])) ∨
    (capacity < (definedNames (ds ++ [(name, description)])).length ∧
      r.define name description = .error (.registryFull name)) := by
  have hnames : r.items.map Item.name = definedNames ds := by rw [hr, map_name_itemsOf]
  rcases define_cases r name description with ⟨item, h, hd⟩ | ⟨h, room, hd⟩ | ⟨h, full, hd⟩
  · have hm : name ∈ definedNames ds := by
      obtain ⟨hi, rfl⟩ := lookup?_eq_some_iff.mp h
      exact hnames ▸ List.mem_map_of_mem hi
    refine Or.inl ⟨_, _, hd, ?_⟩
    rw [itemsOf_concat_of_mem hm, ← hr]
    rfl
  · have hm : name ∉ definedNames ds := hnames ▸ lookup?_eq_none_iff.mp h
    refine Or.inl ⟨_, _, hd, ?_⟩
    rw [itemsOf_concat_of_not_mem hm, ← hr]
    rfl
  · have hm : name ∉ definedNames ds := hnames ▸ lookup?_eq_none_iff.mp h
    refine Or.inr ⟨?_, hd⟩
    rw [definedNames_concat, if_neg hm, List.length_append, ← length_itemsOf, ← hr]
    exact Nat.lt_succ_of_le full

/-! ## A run of definitions -/

theorem defineAll?_cons (r : Registry) (d : String × String) (ds : List (String × String)) :
    r.defineAll? (d :: ds) =
      ((r.define d.1 d.2).toOption.map Prod.snd).bind fun r' => r'.defineAll? ds := rfl

/-- The run, from a registry that holds what earlier definitions make: the step again and again,
and once a definition finds no bit the names are too many for good. -/
theorem defineAll?_itemsOf (ds : List (String × String)) :
    ∀ {r : Registry} {earlier : List (String × String)}, r.items = itemsOf earlier →
      (∃ r', r.defineAll? ds = some r' ∧ r'.items = itemsOf (earlier ++ ds)) ∨
      (capacity < (definedNames (earlier ++ ds)).length ∧ r.defineAll? ds = none) := by
  induction ds with
  | nil =>
      intro r earlier hr
      exact Or.inl ⟨r, rfl, by rw [List.append_nil, hr]⟩
  | cons d ds ih =>
      intro r earlier hr
      obtain ⟨name, description⟩ := d
      have happ : earlier ++ (name, description) :: ds =
          (earlier ++ [(name, description)]) ++ ds := by simp
      rw [defineAll?_cons, happ]
      rcases define_itemsOf hr name description with ⟨item, next, hd, hnext⟩ | ⟨hfull, hd⟩
      · rw [hd]
        exact ih hnext
      · rw [hd]
        have hle := length_definedNames_append_le (earlier ++ [(name, description)]) ds
        exact Or.inr ⟨by omega, rfl⟩

/-- What an empty registry holds once it has taken definitions in. -/
theorem items_of_defineAll? {ds : List (String × String)} {r : Registry}
    (h : empty.defineAll? ds = some r) : r.items = itemsOf ds := by
  rcases @defineAll?_itemsOf ds empty [] rfl with ⟨r', hr', hi⟩ | ⟨-, hn⟩
  · obtain rfl := Option.some.inj (h.symm.trans hr')
    exact hi
  · exact absurd (h.symm.trans hn) (by simp)

/-- An empty registry takes definitions in exactly if their names are not too many. -/
theorem exists_defineAll?_iff {ds : List (String × String)} :
    (∃ r, empty.defineAll? ds = some r) ↔ (definedNames ds).length ≤ capacity := by
  constructor
  · rintro ⟨r, h⟩
    rw [← length_itemsOf, ← items_of_defineAll? h]
    exact r.length_le
  · intro hle
    rcases @defineAll?_itemsOf ds empty [] rfl with ⟨r', hr', -⟩ | ⟨hlt, -⟩
    · exact ⟨r', hr'⟩
    · exact absurd hle (Nat.not_le_of_lt hlt)

end Gamebook.Registry
