/-
# The index of a registry agrees with its items

The names of an indexed registry are sought in an index that definitions extend
and that loading builds anew, each in its own way.  Both keep it in step with the
items: through any number of definitions, refused ones among them, the index finds
the places of the names and nothing else.

`Represents r s` says that `r` has the items of the registry `s` and finds the bits
that `s` finds.  An accepted load represents (`ofItems_cases`), a definition keeps
representing (`Represents.define_cases`), so every registry reached represents one
(`Reached.represents`), and what it answers are the answers of that one.

Main statement: `consistent_of_reached`.
-/
import Gamebook.Proofs.Registry.Bits
import Gamebook.Proofs.Registry.Definitions
import Gamebook.Registry.Indexed

namespace Gamebook.IndexedRegistry

/-- The index finds the bits of a registry with the same items. -/
structure Represents (r : IndexedRegistry) (s : Registry) : Prop where
  items : r.items = s.items
  slots : ∀ name, r.slots.lookup name = (s.lookup? name).map Item.bit

/-! ## Names -/

/-- An entry in front is found for its name, and hides no other. -/
theorem lookup_entry_cons (slots : List (String × Nat)) (slot : Nat) (name name' : String) :
    ((name, slot) :: slots).lookup name' =
      if name = name' then some slot else slots.lookup name' := by
  by_cases h : name = name'
  · simp [h]
  · have hne : (name' == name) = false := by simpa using fun e : name' = name => h e.symm
    simp [List.lookup_cons, hne, h]

section Represents

variable {r : IndexedRegistry} {s : Registry} (h : Represents r s)
include h

/-- The place that the index finds for a name is that of the item. -/
theorem Represents.getElem?_of_lookup? {name : String} {item : Item}
    (hl : s.lookup? name = some item) : r.items[item.bit]? = some item := by
  rw [h.items]
  exact Registry.getElem?_bit (Registry.lookup?_eq_some_iff.mp hl).1

theorem Represents.lookup? (name : String) : r.lookup? name = s.lookup? name := by
  rw [IndexedRegistry.lookup?, h.slots]
  cases hl : s.lookup? name with
  | none => rfl
  | some item =>
      have hplace := h.getElem?_of_lookup? hl
      simp [List.getElem!_eq_getElem?_getD, hplace]

theorem Represents.slots_eq_some_iff {name : String} {slot : Nat} :
    r.slots.lookup name = some slot ↔ (r.items[slot]?).map Item.name = some name := by
  rw [h.slots, h.items, Registry.map_bit_lookup?_eq_some_iff, List.getElem?_map]

theorem Represents.bit_lt {name : String} {item : Item} (hl : r.lookup? name = some item) :
    item.bit < 64 := by
  rw [h.lookup?] at hl
  exact Registry.bit_lt (Registry.lookup?_eq_some_iff.mp hl).1

/-- Names have bits of their own. -/
theorem Represents.bit_ne {name name' : String} {item item' : Item}
    (hl : r.lookup? name = some item) (hl' : r.lookup? name' = some item') (hne : name ≠ name') :
    item.bit ≠ item'.bit := by
  rw [h.lookup?, Registry.lookup?_eq_some_iff] at hl hl'
  intro hbit
  obtain rfl := (Registry.bit_inj hl.1 hl'.1).mp hbit
  exact hne (hl.2.symm.trans hl'.2)

/-! ## Questions about holdings -/

theorem Represents.hasAll (held : Holdings) (names : List String) :
    r.hasAll held names = s.hasAll held names := by
  simp only [IndexedRegistry.hasAll, Registry.hasAll, h.lookup?]

theorem Represents.hasAny (held : Holdings) (names : List String) :
    r.hasAny held names = s.hasAny held names := by
  simp only [IndexedRegistry.hasAny, Registry.hasAny, funext h.lookup?]

theorem Represents.give? (held : Holdings) (name : String) :
    r.give? held name = s.give? held name := by
  cases hl : s.lookup? name with
  | none => rw [IndexedRegistry.give?, Registry.give?, h.lookup?, hl]
  | some item => rw [IndexedRegistry.give?, Registry.give?, h.lookup?, hl]

theorem Represents.take? (held : Holdings) (name : String) :
    r.take? held name = s.take? held name := by
  cases hl : s.lookup? name with
  | none => rw [IndexedRegistry.take?, Registry.take?, h.lookup?, hl]
  | some item => rw [IndexedRegistry.take?, Registry.take?, h.lookup?, hl]

end Represents

/-! ## Definitions -/

section Define

variable {r : IndexedRegistry} {s : Registry}

theorem represents_empty : Represents empty .empty := ⟨rfl, fun _ => rfl⟩

/-- Names decide bits, so the same names at the same places are found alike. -/
theorem map_bit_lookup?_congr {s s' : Registry}
    (hnames : s.items.map Item.name = s'.items.map Item.name) (name : String) :
    (s.lookup? name).map Item.bit = (s'.lookup? name).map Item.bit := by
  refine Option.ext fun i => ?_
  rw [Registry.map_bit_lookup?_eq_some_iff, Registry.map_bit_lookup?_eq_some_iff, hnames]

/-- To describe the item at the place of a name anew is to describe the name anew. -/
theorem Represents.redescribeAt (h : Represents r s) {name : String} {item : Item}
    (hl : s.lookup? name = some item) (description : String) :
    Represents (r.redescribeAt item.bit description) (s.redescribe name description) := by
  constructor
  · show r.items.modify item.bit _ = Registry.redescribeItems name description s.items
    rw [h.items]
    refine List.ext_getElem? fun i => ?_
    rw [List.getElem?_modify, Registry.redescribeItems, List.getElem?_map]
    cases hi : s.items[i]? with
    | none => simp
    | some other =>
        -- the item at the place is the one of the name: names and places are one to one
        have hplace : other.name = name ↔ item.bit = i := by
          constructor
          · intro hn
            have hother : s.lookup? name = some other :=
              Registry.lookup?_eq_some_iff.mpr ⟨List.mem_of_getElem? hi, hn⟩
            obtain rfl := Option.some.inj (hl.symm.trans hother)
            exact Registry.bit_of_getElem? hi
          · rintro rfl
            have hm := (Registry.lookup?_eq_some_iff.mp hl)
            obtain rfl := Option.some.inj (hi.symm.trans (Registry.getElem?_bit hm.1))
            exact hm.2
        by_cases hb : item.bit = i
        · simp [hb, hplace.mpr hb]
        · have hn : ¬other.name = name := fun hn => hb (hplace.mp hn)
          simp [hb, hn]
  · intro n
    rw [IndexedRegistry.redescribeAt, h.slots]
    exact map_bit_lookup?_congr
      (Registry.map_name_redescribeItems name description s.items).symm n

theorem Represents.push (h : Represents r s) {name : String} (fresh : s.lookup? name = none)
    (room : s.size < capacity) (description : String) :
    Represents (r.push name description) (s.append name description fresh room) := by
  have hlen : r.items.length = s.size := by rw [h.items]; rfl
  have hbyte : (UInt8.ofNat r.items.length).toNat = s.size := by
    rw [hlen, UInt8.toNat_ofNat']
    exact Nat.mod_eq_of_lt (Nat.lt_trans room (by decide))
  constructor
  · show r.items ++ [(⟨name, _, description⟩ : Item)] = s.items ++ [⟨name, s.size, description⟩]
    rw [hbyte, h.items]
  · intro n
    show ((name, r.items.length) :: r.slots).lookup n =
      ((s.items ++ [(⟨name, s.size, description⟩ : Item)]).find? fun item => item.name = n).map
        Item.bit
    rw [lookup_entry_cons, List.find?_append, h.slots, hlen]
    by_cases hn : name = n
    · have hnone : (s.items.find? fun item => item.name = n) = none := hn ▸ fresh
      simp [hn, hnone]
    · simp [hn, Registry.lookup?]

/-- The step: a definition is answered as the represented registry answers it, and what is there
afterwards represents what is there afterwards. -/
theorem Represents.define_cases (h : Represents r s) (name description : String) :
    (∃ item s', s.define name description = .ok (item, s') ∧
      (r.define name description).1 = .ok item ∧
      Represents (r.define name description).2 s') ∨
    (s.define name description = .error (.registryFull name) ∧
      r.define name description = (.error (.registryFull name), r)) := by
  have hlen : r.items.length = s.size := by rw [h.items]; rfl
  rcases Registry.define_cases s name description with
    ⟨item, hl, hd⟩ | ⟨fresh, room, hd⟩ | ⟨fresh, full, hd⟩
  · have hslot : r.slots.lookup name = some item.bit := by rw [h.slots, hl]; rfl
    refine Or.inl ⟨_, _, hd, ?_, ?_⟩
    · have hplace := h.getElem?_of_lookup? hl
      simp [define, hslot, IndexedRegistry.redescribeAt, List.getElem!_eq_getElem?_getD, hplace]
    · rw [define, hslot]
      exact h.redescribeAt hl description
  · have hslot : r.slots.lookup name = none := by rw [h.slots, fresh]; rfl
    have hroom : ¬capacity ≤ r.items.length := by omega
    have hnext := h.push fresh room description
    refine Or.inl ⟨_, _, hd, ?_, ?_⟩
    · have hlast : (r.push name description).items[r.items.length]? =
          some ⟨name, s.size, description⟩ := by
        rw [hnext.items, hlen]
        exact List.getElem?_concat_length
      simp [define, hslot, hroom, List.getElem!_eq_getElem?_getD, hlast]
    · simpa only [define, hslot, if_neg hroom] using hnext
  · have hslot : r.slots.lookup name = none := by rw [h.slots, fresh]; rfl
    have hfull : capacity ≤ r.items.length := by omega
    exact Or.inr ⟨hd, by simp only [define, hslot, if_pos hfull]⟩

end Define

/-! ## Loads -/

/-- Entering names is the check of the layout, so long as the index holds the names seen. -/
theorem enter_cases (items : List Item) :
    ∀ (slot : Nat) {slots : List (String × Nat)} {seen : List String},
      (∀ name, slots.lookup name = none ↔ name ∉ seen) →
      (∃ fault, Registry.firstFault? slot seen items = some fault ∧
        enter slots slot items = .error fault) ∨
      (Registry.firstFault? slot seen items = none ∧
        ∃ index, enter slots slot items = .ok index) := by
  induction items with
  | nil => exact fun _ _ _ _ => Or.inr ⟨rfl, _, rfl⟩
  | cons item rest ih =>
      intro slot slots seen hseen
      rw [Registry.firstFault?, enter]
      by_cases hb : item.bit = slot
      · by_cases hs : item.name ∈ seen
        · have hfound : slots.lookup item.name ≠ none := fun e => (hseen _).mp e hs
          obtain ⟨old, hold⟩ := Option.ne_none_iff_exists'.mp hfound
          simp [hb, hs, hold]
        · have hseen' : ∀ name, ((item.name, slot) :: slots).lookup name = none ↔
              name ∉ item.name :: seen := by
            intro name
            rw [lookup_entry_cons]
            by_cases hn : item.name = name
            · simp [hn]
            · have hn' : ¬name = item.name := fun e => hn e.symm
              simp [hn, hn', hseen]
          have hnew : slots.lookup item.name = none := (hseen _).mpr hs
          simpa [hb, hs, hnew] using ih (slot + 1) hseen'
      · simp [hb]

/-- The first of a row is entered if it stands at its bit under a new name. -/
theorem enter_cons_eq_ok_iff {item : Item} {rest : List Item} {slots index : List (String × Nat)}
    {slot : Nat} : enter slots slot (item :: rest) = .ok index ↔
      item.bit = slot ∧ slots.lookup item.name = none ∧
        enter ((item.name, slot) :: slots) (slot + 1) rest = .ok index := by
  rw [enter]
  by_cases hb : item.bit = slot
  · cases hn : slots.lookup item.name <;> simp [hb]
  · simp [hb]

/-- What an index finds once names are entered: what it found before, else the bit of the item
that bears the name. -/
theorem lookup_enter {items : List Item} :
    ∀ {slots index : List (String × Nat)} {slot : Nat}, enter slots slot items = .ok index →
      ∀ name, index.lookup name =
        (slots.lookup name).or ((items.find? fun item => item.name = name).map Item.bit) := by
  induction items with
  | nil =>
      intro slots index slot h name
      obtain rfl := Except.ok.inj h
      simp
  | cons item rest ih =>
      intro slots index slot h name
      obtain ⟨hb, hnew, hrest⟩ := enter_cons_eq_ok_iff.mp h
      rw [ih hrest, lookup_entry_cons]
      by_cases hn : item.name = name
      · rw [← hn, hnew]
        simp [hb]
      · simp [hn]

/-- A load is accepted or refused as the represented registry is, for the same fault. -/
theorem ofItems_cases (items : List Item) :
    (∃ fault, Registry.ofItems items = .error fault ∧ ofItems items = .error fault) ∨
    (∃ r s, Registry.ofItems items = .ok s ∧ ofItems items = .ok r ∧ Represents r s) := by
  by_cases hroom : items.length ≤ capacity
  · have hroom' : ¬capacity < items.length := Nat.not_lt_of_le hroom
    have hnothing : ∀ name, List.lookup name ([] : List (String × Nat)) = none ↔ name ∉ [] := by
      simp
    rw [Registry.ofItems, dif_pos hroom, ofItems, if_neg hroom']
    rcases enter_cases (Registry.sortByBit items) 0 hnothing with
      ⟨fault, hfault, henter⟩ | ⟨hnone, index, henter⟩
    · refine Or.inl ⟨.invalidLayout fault, ?_, by simp only [henter]⟩
      split
      next fault' h => rw [Option.some.inj (h.symm.trans hfault)]
      next h => exact absurd (h.symm.trans hfault) (by simp)
    · refine Or.inr ?_
      split
      next fault' h => exact absurd (h.symm.trans hnone) (by simp)
      next =>
        refine ⟨⟨Registry.sortByBit items, index⟩, _, rfl, by simp only [henter], rfl,
          fun name => ?_⟩
        rw [lookup_enter henter]
        rfl
  · refine Or.inl ⟨.invalidLayout (.tooMany items.length), ?_, ?_⟩
    · rw [Registry.ofItems, dif_neg hroom]
    · rw [ofItems, if_pos (Nat.lt_of_not_le hroom)]

/-! ## Runs -/

/-- The registries that definitions lead to from nothing or from an accepted load; a definition
that is refused counts. -/
inductive Reached : IndexedRegistry → Prop
  | empty : Reached empty
  | load {items : List Item} {r : IndexedRegistry} : ofItems items = .ok r → Reached r
  | define {r : IndexedRegistry} (name description : String) :
      Reached r → Reached (r.define name description).2

theorem Reached.represents {r : IndexedRegistry} (h : Reached r) : ∃ s, Represents r s := by
  induction h with
  | empty => exact ⟨_, represents_empty⟩
  | @load items r hload =>
      rcases ofItems_cases items with ⟨fault, -, hf⟩ | ⟨r', s, -, hr, hs⟩
      · exact absurd (hload.symm.trans hf) (by simp)
      · obtain rfl := Except.ok.inj (hload.symm.trans hr)
        exact ⟨s, hs⟩
  | define name description _ ih =>
      obtain ⟨s, hs⟩ := ih
      rcases hs.define_cases name description with ⟨item, s', -, -, hs'⟩ | ⟨-, hd⟩
      · exact ⟨s', hs'⟩
      · exact ⟨s, by rw [hd]; exact hs⟩

/-! ## What holds at every moment -/

/-- The items have the bits of their places and names of their own, and the index finds the
places of the names and nothing else. -/
structure Consistent (r : IndexedRegistry) : Prop where
  length_le : r.items.length ≤ 64
  bit_eq : ∀ (i : Nat) (item : Item), r.items[i]? = some item → item.bit = i
  mask_eq : ∀ item ∈ r.items, item.bit < 64 ∧ item.mask.toNat = 2 ^ item.bit
  masks_apart : r.items.Pairwise fun a b => a.mask &&& b.mask = 0
  names_nodup : (r.items.map Item.name).Nodup
  slots : ∀ (name : String) (slot : Nat),
    r.slots.lookup name = some slot ↔ (r.items[slot]?).map Item.name = some name
  lookup? : ∀ (name : String) (item : Item),
    r.lookup? name = some item ↔ item ∈ r.items ∧ item.name = name

/-- A definition is refused exactly when the name is new and every bit is taken, and then nothing
has changed; otherwise the item is there as defined.  Either way the others are as they were. -/
structure DefinesOnly (r : IndexedRegistry) (name description : String) : Prop where
  refused_iff : (∃ fault, (r.define name description).1 = .error fault) ↔
    r.lookup? name = none ∧ r.items.length = 64
  refused : ∀ fault, (r.define name description).1 = .error fault →
    (r.define name description).2 = r
  defined : ∀ item, (r.define name description).1 = .ok item →
    (r.define name description).2.lookup? name = some item ∧ item.description = description
  kept : ∀ (i : Nat) (old : Item), r.items[i]? = some old →
    ∃ new : Item, (r.define name description).2.items[i]? = some new ∧ new.name = old.name ∧
      new.bit = old.bit ∧ (old.name ≠ name → new.description = old.description)

/-- Two registries give the same answers. -/
structure Alike (r r' : IndexedRegistry) : Prop where
  lookup? : ∀ name, r.lookup? name = r'.lookup? name
  describe? : ∀ name, r.describe? name = r'.describe? name
  hasAll : ∀ held names, r.hasAll held names = r'.hasAll held names
  hasAny : ∀ held names, r.hasAny held names = r'.hasAny held names
  give? : ∀ held name, r.give? held name = r'.give? held name
  take? : ∀ held name, r.take? held name = r'.take? held name
  contents : ∀ held, r.contents held = r'.contents held

section Represents

variable {r r' : IndexedRegistry} {s s' : Registry}

theorem Represents.consistent (h : Represents r s) : Consistent r where
  length_le := by
    rw [h.items]
    exact s.length_le
  bit_eq := by
    intro i item hi
    rw [h.items] at hi
    exact Registry.bit_of_getElem? hi
  mask_eq := by
    intro item hm
    rw [h.items] at hm
    have hbit := Registry.bit_lt hm
    exact ⟨hbit, Holdings.toNat_mask hbit⟩
  masks_apart := by
    rw [h.items]
    have hbits : s.items.Pairwise fun a b => a.bit ≠ b.bit := by
      rw [← List.pairwise_map, s.bits_eq]
      exact List.nodup_range
    refine hbits.imp_of_mem fun ha hb hne => ?_
    exact Holdings.mask_and_mask (Registry.bit_lt ha) (Registry.bit_lt hb) hne
  names_nodup := by
    rw [h.items]
    exact s.names_nodup
  slots := fun _ _ => h.slots_eq_some_iff
  lookup? := by
    intro name item
    rw [h.lookup?, h.items]
    exact Registry.lookup?_eq_some_iff

theorem Represents.definesOnly (h : Represents r s) (name description : String) :
    DefinesOnly r name description := by
  have hsize : r.items.length = s.size := by rw [h.items]; rfl
  have hrefused := Registry.exists_define_eq_error_iff s name description
  rw [← h.lookup?, ← hsize] at hrefused
  rcases h.define_cases name description with ⟨item, s', hd, hok, hs'⟩ | ⟨hd, herror⟩
  · obtain ⟨⟨hmem, hname, hdescription⟩, hkept⟩ := Registry.kept_of_define hd
    constructor
    · refine Iff.trans ?_ hrefused
      rw [hok, hd]
      simp
    · intro fault hf
      exact absurd (hok.symm.trans hf) (by simp)
    · intro item' hi
      obtain rfl := Except.ok.inj (hok.symm.trans hi)
      rw [hs'.lookup?]
      exact ⟨Registry.lookup?_eq_some_iff.mpr ⟨hmem, hname⟩, hdescription⟩
    · rw [h.items, hs'.items]
      exact hkept
  · constructor
    · refine Iff.trans ?_ hrefused
      simp [herror, hd]
    · intro fault _
      rw [herror]
    · intro item hi
      rw [herror] at hi
      exact absurd hi (by simp)
    · intro i old hi
      rw [herror]
      exact ⟨old, hi, rfl, rfl, fun _ => rfl⟩

/-- What is answered depends on the registry that is represented, and that on the items. -/
theorem Represents.alike (h : Represents r s) (h' : Represents r' s') (heq : r.items = r'.items) :
    Alike r r' := by
  have hs : s = s' := Registry.items_injective (by rw [← h.items, heq, h'.items])
  have hlookup : r.lookup? = r'.lookup? := by
    funext name
    rw [h.lookup?, h'.lookup?, hs]
  constructor
  · intro name; rw [hlookup]
  · intro name; rw [describe?, describe?, hlookup]
  · intro held names; rw [h.hasAll, h'.hasAll, hs]
  · intro held names; rw [h.hasAny, h'.hasAny, hs]
  · intro held name; rw [h.give?, h'.give?, hs]
  · intro held name; rw [h.take?, h'.take?, hs]
  · intro held; rw [contents, contents, heq]

end Represents

/-- Whatever was loaded and however it was defined from there on, the items and the index of a
registry agree; a further definition is refused only for want of a bit and changes no more than
it says; and registries with the same items give the same answers. -/
theorem consistent_of_reached {r : IndexedRegistry} (h : Reached r) :
    Consistent r ∧ (∀ name description, DefinesOnly r name description) ∧
      ∀ r', Reached r' → (r == r') = true → Alike r r' := by
  obtain ⟨s, hs⟩ := h.represents
  refine ⟨hs.consistent, hs.definesOnly, fun r' h' heq => ?_⟩
  obtain ⟨s', hs'⟩ := h'.represents
  exact hs.alike hs' (eq_of_beq heq)

/-- A rope and a lamp that were saved out of order, a key behind them, and the lamp described
anew. -/
def cave : IndexedRegistry :=
  ⟨[⟨"lamp", 0, "Lit"⟩, ⟨"rope", 1, "Long"⟩, ⟨"key", 2, "Small"⟩],
    [("key", 2), ("rope", 1), ("lamp", 0)]⟩

theorem consistent_of_reached_cave :
    Reached cave ∧ cave.lookup? "key" = some ⟨"key", 2, "Small"⟩ ∧ cave.lookup? "torch" = none ∧
      Consistent cave ∧ DefinesOnly cave "torch" "Bright" ∧ Alike cave cave := by
  have hload : ofItems [⟨"rope", 1, "Long"⟩, ⟨"lamp", 0, ""⟩] =
      .ok ⟨[⟨"lamp", 0, ""⟩, ⟨"rope", 1, "Long"⟩], [("rope", 1), ("lamp", 0)]⟩ := by
    simp [ofItems, Registry.sortByBit, List.mergeSort, enter, lookup_entry_cons, capacity]
  have hreached : Reached cave := ((Reached.load hload).define "key" "Small").define "lamp" "Lit"
  obtain ⟨hconsistent, hdefines, halike⟩ := consistent_of_reached hreached
  exact ⟨hreached, by decide, by decide, hconsistent, hdefines "torch" "Bright",
    halike cave hreached (by decide)⟩

end Gamebook.IndexedRegistry
