/-
# Names and their bits

The bit of an item is its place in the registry, so a registry says no more about
holdings than which names stand where.  Two registries that have the same bit for
a name, or both none, treat the name alike: asked for it, given it, taking it.

Main statements: `map_bit_lookup?_eq_some_iff`, the bit that a name finds is its
place; `agreeOn_of_prefix`, a registry with more items behind agrees on the names
it does not add; `hasAll_congr`, `hasAny_congr`, `give?_congr`, `take?_congr`;
`hasAll_eq_true_iff`, `hasAny_eq_true_iff`, the questions name by name (`Has`).
-/
import Gamebook.Proofs.Holdings
import Gamebook.Registry

namespace Gamebook.Registry

/-! ## Places -/

theorem items_injective {r r' : Registry} (h : r.items = r'.items) : r = r' := by
  cases r
  cases r'
  cases h
  rfl

theorem bit_of_getElem? {r : Registry} {i : Nat} {item : Item} (h : r.items[i]? = some item) :
    item.bit = i := by
  have hi : i < r.items.length := (List.getElem?_eq_some_iff.mp h).1
  have hb : (r.items.map Item.bit)[i]? = some item.bit := by rw [List.getElem?_map, h]; rfl
  rw [r.bits_eq, List.getElem?_range hi] at hb
  exact (Option.some.inj hb).symm

theorem getElem?_bit {r : Registry} {item : Item} (h : item ∈ r.items) :
    r.items[item.bit]? = some item := by
  obtain ⟨i, hi⟩ := List.getElem?_of_mem h
  rwa [bit_of_getElem? hi]

theorem bit_lt_size {r : Registry} {item : Item} (h : item ∈ r.items) : item.bit < r.size :=
  (List.getElem?_eq_some_iff.mp (getElem?_bit h)).1

theorem bit_lt {r : Registry} {item : Item} (h : item ∈ r.items) : item.bit < 64 :=
  Nat.lt_of_lt_of_le (bit_lt_size h) r.length_le

/-- A bit belongs to one item. -/
theorem bit_inj {r : Registry} {item item' : Item} (h : item ∈ r.items) (h' : item' ∈ r.items) :
    item.bit = item'.bit ↔ item = item' := by
  refine ⟨fun hbit => ?_, congrArg Item.bit⟩
  have hplace := getElem?_bit h
  rw [hbit, getElem?_bit h'] at hplace
  exact (Option.some.inj hplace).symm

/-- A name belongs to one item. -/
theorem name_inj {r : Registry} {item item' : Item} (h : item ∈ r.items) (h' : item' ∈ r.items) :
    item.name = item'.name ↔ item = item' := by
  refine ⟨fun hname => ?_, congrArg Item.name⟩
  have hfound := lookup?_eq_some_iff.mpr ⟨h, hname⟩
  rw [lookup?_eq_some_iff.mpr ⟨h', rfl⟩] at hfound
  exact (Option.some.inj hfound).symm

/-- The bit that a name finds is its place among the names. -/
theorem map_bit_lookup?_eq_some_iff {r : Registry} {name : String} {i : Nat} :
    (r.lookup? name).map Item.bit = some i ↔ (r.items.map Item.name)[i]? = some name := by
  rw [Option.map_eq_some_iff, List.getElem?_map, Option.map_eq_some_iff]
  constructor
  · rintro ⟨item, hl, rfl⟩
    obtain ⟨hm, hn⟩ := lookup?_eq_some_iff.mp hl
    exact ⟨item, getElem?_bit hm, hn⟩
  · rintro ⟨item, hi, hn⟩
    exact ⟨item, lookup?_eq_some_iff.mpr ⟨List.mem_of_getElem? hi, hn⟩, bit_of_getElem? hi⟩

/-! ## Giving and taking -/

theorem give?_eq_some_iff {r : Registry} {held next : Holdings} {name : String} :
    r.give? held name = some next ↔
      ∃ item, r.lookup? name = some item ∧ held.holds item = false ∧ held.insert item = next := by
  cases hl : r.lookup? name with
  | none => simp [give?, hl]
  | some item => cases hh : held.holds item <;> simp [give?, hl, hh]

theorem take?_eq_some_iff {r : Registry} {held next : Holdings} {name : String} :
    r.take? held name = some next ↔
      ∃ item, r.lookup? name = some item ∧ held.holds item = true ∧ held.erase item = next := by
  cases hl : r.lookup? name with
  | none => simp [take?, hl]
  | some item => cases hh : held.holds item <;> simp [take?, hl, hh]

/-! ## Registries that agree -/

/-- Two registries have the same bit for a name, or both have none. -/
def AgreeOn (r r' : Registry) (name : String) : Prop :=
  (r.lookup? name).map Item.bit = (r'.lookup? name).map Item.bit

/-- More items behind those of a registry change nothing for a name that is not among them. -/
theorem agreeOn_of_prefix {r r' : Registry}
    (h : r.items.map Item.name <+: r'.items.map Item.name) {name : String}
    (hnew : r.lookup? name = none → r'.lookup? name = none) : AgreeOn r r' name := by
  cases hl : r.lookup? name with
  | none => rw [AgreeOn, hl, hnew hl]
  | some item =>
      have hplace : (r.items.map Item.name)[item.bit]? = some name := by
        rw [← map_bit_lookup?_eq_some_iff, hl]; rfl
      have hplace' : (r'.items.map Item.name)[item.bit]? = some name := by
        obtain ⟨more, hmore⟩ := h
        rw [← hmore, List.getElem?_append_left (List.getElem?_eq_some_iff.mp hplace).1, hplace]
      rw [AgreeOn, hl, map_bit_lookup?_eq_some_iff.mpr hplace']
      rfl

section Agree

variable {r r' : Registry} {name : String}

/-- Where two registries agree, both find nothing or both find items of one bit. -/
theorem AgreeOn.cases (h : AgreeOn r r' name) :
    (r.lookup? name = none ∧ r'.lookup? name = none) ∨
      ∃ item item', r.lookup? name = some item ∧ r'.lookup? name = some item' ∧
        item.bit = item'.bit := by
  unfold AgreeOn at h
  cases hl : r.lookup? name with
  | none =>
      rw [hl, Option.map_none, eq_comm, Option.map_eq_none_iff] at h
      exact Or.inl ⟨rfl, h⟩
  | some item =>
      rw [hl, Option.map_some, eq_comm, Option.map_eq_some_iff] at h
      obtain ⟨item', hl', hb⟩ := h
      exact Or.inr ⟨item, item', rfl, hl', hb.symm⟩

theorem give?_congr (h : AgreeOn r r' name) (held : Holdings) :
    r.give? held name = r'.give? held name := by
  rcases h.cases with ⟨hl, hl'⟩ | ⟨item, item', hl, hl', hb⟩
  · rw [give?, give?, hl, hl']
  · simp only [give?, hl, hl', Holdings.holds_congr hb, Holdings.insert_congr hb]

theorem take?_congr (h : AgreeOn r r' name) (held : Holdings) :
    r.take? held name = r'.take? held name := by
  rcases h.cases with ⟨hl, hl'⟩ | ⟨item, item', hl, hl', hb⟩
  · rw [take?, take?, hl, hl']
  · simp only [take?, hl, hl', Holdings.holds_congr hb, Holdings.erase_congr hb]

theorem any_holds_congr (h : AgreeOn r r' name) (held : Holdings) :
    (r.lookup? name).any held.holds = (r'.lookup? name).any held.holds := by
  rcases h.cases with ⟨hl, hl'⟩ | ⟨item, item', hl, hl', hb⟩
  · rw [hl, hl']
  · rw [hl, hl', Option.any_some, Option.any_some, Holdings.holds_congr hb]

end Agree

theorem hasAll_congr {r r' : Registry} {names : List String}
    (h : ∀ name ∈ names, AgreeOn r r' name) (held : Holdings) :
    r.hasAll held names = r'.hasAll held names := by
  rw [Bool.eq_iff_iff, hasAll, hasAll, List.all_eq_true, List.all_eq_true]
  exact forall₂_congr fun name hname => by rw [any_holds_congr (h name hname)]

/-- An undefined name is passed over, so asking for any is asking name by name. -/
theorem hasAny_eq_any (r : Registry) (held : Holdings) (names : List String) :
    r.hasAny held names = names.any fun name => (r.lookup? name).any held.holds := by
  rw [hasAny, List.any_filterMap]
  rfl

theorem hasAny_congr {r r' : Registry} {names : List String}
    (h : ∀ name ∈ names, AgreeOn r r' name) (held : Holdings) :
    r.hasAny held names = r'.hasAny held names := by
  rw [Bool.eq_iff_iff, hasAny_eq_any, hasAny_eq_any, List.any_eq_true, List.any_eq_true]
  exact exists_congr fun name => and_congr_right fun hname => by
    rw [any_holds_congr (h name hname)]

/-! ## Names that are held -/

section Has

variable {r : Registry} {held : Holdings}

/-- The name is defined, and its item is held. -/
def Has (r : Registry) (held : Holdings) (name : String) : Prop :=
  ∃ item, r.lookup? name = some item ∧ held.holds item = true

theorem hasAll_eq_true_iff {names : List String} :
    r.hasAll held names = true ↔ ∀ name ∈ names, r.Has held name := by
  simp only [hasAll, List.all_eq_true, Option.any_eq_true, Has]

theorem hasAny_eq_true_iff {names : List String} :
    r.hasAny held names = true ↔ ∃ name ∈ names, r.Has held name := by
  simp only [hasAny_eq_any, List.any_eq_true, Option.any_eq_true, Has]

end Has

end Gamebook.Registry
