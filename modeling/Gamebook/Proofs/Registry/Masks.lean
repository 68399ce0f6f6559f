/-
# Guards as masks

A guard asks for its names one after the other, and searches for each.  It may as well
put the masks of their items together and compare what is held with the one mask that
comes of it: nothing of the mask is missing, or something of it is there.  An undefined
name has no mask, which is why it passes unseen by the second question and has to be
asked for by itself in the first.

Main statements: `holds_all_iff` and `holds_any_iff`, one mask for several items;
`guards_by_mask`.
-/
import Gamebook.Proofs.Registry.Layout

namespace Gamebook

namespace Holdings

/-! ## The mask of several items -/

/-- The masks of items put together. -/
def maskOf (items : List Item) : UInt64 := (items.map Item.mask).foldr (· ||| ·) 0

theorem testBit_maskOf {items : List Item} (hb : ∀ item ∈ items, item.bit < 64) (i : Nat) :
    (maskOf items).toNat.testBit i = true ↔ ∃ item ∈ items, item.bit = i := by
  induction items with
  | nil => simp [maskOf]
  | cons item items ih =>
      have hfirst := testBit_mask (hb item List.mem_cons_self) i
      have hrest := ih fun other ho => hb other (List.mem_cons_of_mem _ ho)
      have hmask : maskOf (item :: items) = item.mask ||| maskOf items := rfl
      rw [hmask, UInt64.toNat_or, Nat.testBit_or, hfirst, Bool.or_eq_true, hrest]
      simp

/-- Nothing of the second mask is missing in the first. -/
theorem and_eq_right_iff {a b : UInt64} :
    a &&& b = b ↔ ∀ i, b.toNat.testBit i = true → a.toNat.testBit i = true := by
  rw [← UInt64.toNat_inj, UInt64.toNat_and]
  constructor
  · intro h i hi
    rw [← h, Nat.testBit_and, Bool.and_eq_true] at hi
    exact hi.1
  · intro h
    refine Nat.eq_of_testBit_eq fun i => ?_
    rw [Nat.testBit_and, Bool.and_eq_right_iff_imp]
    exact h i

/-- The masks have a bit in common. -/
theorem and_ne_zero_iff {a b : UInt64} :
    a &&& b ≠ 0 ↔ ∃ i, a.toNat.testBit i = true ∧ b.toNat.testBit i = true := by
  rw [ne_eq, ← UInt64.toNat_inj, UInt64.toNat_and]
  constructor
  · intro h
    obtain ⟨i, hi⟩ := Nat.exists_testBit_of_ne_zero h
    rw [Nat.testBit_and, Bool.and_eq_true] at hi
    exact ⟨i, hi⟩
  · rintro ⟨i, ha, hb⟩ h
    have hi : (a.toNat &&& b.toNat).testBit i = true := by rw [Nat.testBit_and, ha, hb]; rfl
    rw [h] at hi
    exact absurd hi (by simp)

section Items

variable {items : List Item} (hb : ∀ item ∈ items, item.bit < 64) (held : Holdings)
include hb

theorem holds_all_iff :
    held.bits &&& maskOf items = maskOf items ↔ ∀ item ∈ items, held.holds item = true := by
  rw [and_eq_right_iff]
  constructor
  · intro h item hitem
    rw [holds_eq (hb item hitem)]
    exact h item.bit ((testBit_maskOf hb _).mpr ⟨item, hitem, rfl⟩)
  · intro h i hi
    obtain ⟨item, hitem, rfl⟩ := (testBit_maskOf hb i).mp hi
    rw [← h item hitem, holds_eq (hb item hitem)]
    rfl

theorem holds_any_iff :
    held.bits &&& maskOf items ≠ 0 ↔ ∃ item ∈ items, held.holds item = true := by
  rw [and_ne_zero_iff]
  constructor
  · rintro ⟨i, hheld, hi⟩
    obtain ⟨item, hitem, rfl⟩ := (testBit_maskOf hb i).mp hi
    exact ⟨item, hitem, (holds_eq (hb item hitem) held).trans hheld⟩
  · rintro ⟨item, hitem, hheld⟩
    rw [holds_eq (hb item hitem)] at hheld
    exact ⟨item.bit, hheld, (testBit_maskOf hb _).mpr ⟨item, hitem, rfl⟩⟩

end Items

/-! ## More held -/

/-- Every bit of the first holdings is set in the second. -/
def Within (held held' : Holdings) : Prop :=
  ∀ i < 64, held.hasBit i = true → held'.hasBit i = true

theorem Within.holds {held held' : Holdings} (h : held.Within held') {item : Item}
    (hb : item.bit < 64) (hi : held.holds item = true) : held'.holds item = true := by
  rw [holds_eq hb] at hi ⊢
  exact h item.bit hb hi

end Holdings

namespace Registry

open Holdings (maskOf)

/-! ## Guards -/

variable {r : Registry} {held held' : Holdings} {name : String} {names names' : List String}

/-- The items of the names that are defined. -/
def itemsNamed (r : Registry) (names : List String) : List Item := names.filterMap r.lookup?

theorem mem_itemsNamed {item : Item} :
    item ∈ r.itemsNamed names ↔ ∃ name ∈ names, r.lookup? name = some item := List.mem_filterMap

theorem bit_lt_of_mem_itemsNamed : ∀ item ∈ r.itemsNamed names, item.bit < 64 := by
  intro item hitem
  obtain ⟨name, -, hl⟩ := mem_itemsNamed.mp hitem
  exact bit_lt (lookup?_eq_some_iff.mp hl).1

theorem hasAll_iff_mask :
    r.hasAll held names = true ↔ (∀ name ∈ names, r.lookup? name ≠ none) ∧
      held.bits &&& maskOf (r.itemsNamed names) = maskOf (r.itemsNamed names) := by
  rw [hasAll_eq_true_iff, Holdings.holds_all_iff bit_lt_of_mem_itemsNamed]
  constructor
  · intro h
    constructor
    · intro name hname hnone
      obtain ⟨item, hl, -⟩ := h name hname
      exact nomatch hnone.symm.trans hl
    · intro item hitem
      obtain ⟨name, hname, hl⟩ := mem_itemsNamed.mp hitem
      obtain ⟨item', hl', hheld⟩ := h name hname
      obtain rfl := Option.some.inj (hl.symm.trans hl')
      exact hheld
  · rintro ⟨hdefined, hheld⟩ name hname
    obtain ⟨item, hl⟩ := Option.ne_none_iff_exists'.mp (hdefined name hname)
    exact ⟨item, hl, hheld item (mem_itemsNamed.mpr ⟨name, hname, hl⟩)⟩

theorem hasAny_iff_mask :
    r.hasAny held names = true ↔ held.bits &&& maskOf (r.itemsNamed names) ≠ 0 := by
  rw [hasAny_eq_true_iff, Holdings.holds_any_iff bit_lt_of_mem_itemsNamed]
  constructor
  · rintro ⟨name, hname, item, hl, hheld⟩
    exact ⟨item, mem_itemsNamed.mpr ⟨name, hname, hl⟩, hheld⟩
  · rintro ⟨item, hitem, hheld⟩
    obtain ⟨name, hname, hl⟩ := mem_itemsNamed.mp hitem
    exact ⟨name, hname, item, hl, hheld⟩

theorem Has.mono (h : held.Within held') (hname : r.Has held name) : r.Has held' name := by
  obtain ⟨item, hl, hheld⟩ := hname
  exact ⟨item, hl, h.holds (bit_lt (lookup?_eq_some_iff.mp hl).1) hheld⟩

/-- Neither the order of names nor how often they come matters to a guard. -/
theorem hasAll_congr_of_mem (h : ∀ name, name ∈ names ↔ name ∈ names') :
    r.hasAll held names = r.hasAll held names' := by
  rw [Bool.eq_iff_iff, hasAll_eq_true_iff, hasAll_eq_true_iff]
  exact forall_congr' fun name => imp_congr_left (h name)

/-- To the question for any only the defined names matter. -/
theorem hasAny_congr_of_mem
    (h : ∀ name, r.lookup? name ≠ none → (name ∈ names ↔ name ∈ names')) :
    r.hasAny held names = r.hasAny held names' := by
  have hhas : ∀ name, r.Has held name → (name ∈ names ↔ name ∈ names') := by
    rintro name ⟨item, hl, -⟩
    exact h name (by simp [hl])
  rw [Bool.eq_iff_iff, hasAny_eq_true_iff, hasAny_eq_true_iff]
  exact exists_congr fun name => and_congr_left (hhas name)

end Registry

namespace IndexedRegistry

open Holdings (maskOf)

/-- The masks of the names that are defined, put together. -/
def mask (r : IndexedRegistry) (names : List String) : UInt64 :=
  maskOf (names.filterMap r.lookup?)

/-- Both questions about holdings in terms of one mask, and what follows for names that are moved,
repeated or undefined and for holdings that grow. -/
structure GuardsByMask (r : IndexedRegistry) : Prop where
  hasAll_iff : ∀ held names, r.hasAll held names = true ↔
    (∀ name ∈ names, r.lookup? name ≠ none) ∧ held.bits &&& r.mask names = r.mask names
  hasAny_iff : ∀ held names, r.hasAny held names = true ↔ held.bits &&& r.mask names ≠ 0
  same_names : ∀ held names names', (∀ name, name ∈ names ↔ name ∈ names') →
    r.hasAll held names = r.hasAll held names' ∧ r.hasAny held names = r.hasAny held names'
  undefined_all : ∀ held names, (∃ name ∈ names, r.lookup? name = none) →
    r.hasAll held names = false
  undefined_any : ∀ held names names', names.Sublist names' →
    (∀ name ∈ names', name ∈ names ∨ r.lookup? name = none) →
    r.hasAny held names' = r.hasAny held names
  mono : ∀ held held' : Holdings, held.Within held' → ∀ names,
    (r.hasAll held names = true → r.hasAll held' names = true) ∧
    (r.hasAny held names = true → r.hasAny held' names = true)

/-- Guards may be asked as masks, whatever was loaded and defined. -/
theorem guards_by_mask {r : IndexedRegistry} (h : Reached r) : GuardsByMask r := by
  obtain ⟨s, hs⟩ := h.represents
  have hmask : ∀ names, r.mask names = maskOf (s.itemsNamed names) := by
    intro names
    rw [mask, funext hs.lookup?]
    rfl
  constructor
  case hasAll_iff =>
    intro held names
    simp only [hs.hasAll, hs.lookup?, hmask]
    exact Registry.hasAll_iff_mask
  case hasAny_iff =>
    intro held names
    simp only [hs.hasAny, hmask]
    exact Registry.hasAny_iff_mask
  case same_names =>
    intro held names names' hmem
    simp only [hs.hasAll, hs.hasAny]
    exact ⟨Registry.hasAll_congr_of_mem hmem, Registry.hasAny_congr_of_mem fun name _ => hmem name⟩
  case undefined_all =>
    rintro held names ⟨name, hname, hnone⟩
    rw [hs.hasAll, ← Bool.not_eq_true, Registry.hasAll_iff_mask]
    exact fun hall => hall.1 name hname ((hs.lookup? name).symm.trans hnone)
  case undefined_any =>
    intro held names names' hsub hextra
    simp only [hs.hasAny]
    refine Registry.hasAny_congr_of_mem fun name hdefined => ⟨fun hname => ?_, fun hname => ?_⟩
    · rw [← hs.lookup?] at hdefined
      exact (hextra name hname).resolve_right hdefined
    · exact hsub.subset hname
  case mono =>
    intro held held' hwithin names
    simp only [hs.hasAll, hs.hasAny, Registry.hasAll_eq_true_iff, Registry.hasAny_eq_true_iff]
    constructor
    · exact fun hall name hname => (hall name hname).mono hwithin
    · rintro ⟨name, hname, hhas⟩
      exact ⟨name, hname, hhas.mono hwithin⟩

/-- The last bit and the second, one of them asked for twice and with a name that is unknown. -/
theorem guards_by_mask_full :
    Reached full ∧ full.mask [marks 63, marks 1, "key", marks 63] = 0x8000000000000002 ∧
      full.hasAny ⟨0x8000000000000000⟩ [marks 63, marks 1, "key", marks 63] = true ∧
      full.hasAll ⟨0x8000000000000003⟩ [marks 63, marks 1, marks 63] = true ∧
      full.hasAll ⟨0x8000000000000000⟩ [marks 63, marks 1, marks 63] = false ∧
      full.hasAll ⟨0x8000000000000003⟩ [marks 63, "key"] = false := by
  obtain ⟨hany, hall, hdefined, hkey⟩ :
      full.mask [marks 63, marks 1, "key", marks 63] = 0x8000000000000002 ∧
        full.mask [marks 63, marks 1, marks 63] = 0x8000000000000002 ∧
        (∀ name ∈ [marks 63, marks 1, marks 63], full.lookup? name ≠ none) ∧
        full.lookup? "key" = none := by
    decide +kernel
  have hguards := guards_by_mask reached_full
  refine ⟨reached_full, hany, ?_, ?_, ?_, ?_⟩
  · rw [hguards.hasAny_iff, hany]
    decide +kernel
  · rw [hguards.hasAll_iff, hall]
    exact ⟨hdefined, by decide +kernel⟩
  · rw [← Bool.not_eq_true, hguards.hasAll_iff, hall]
    exact fun h => absurd h.2 (by decide +kernel)
  · exact hguards.undefined_all _ _ ⟨"key", by simp, hkey⟩

end IndexedRegistry

end Gamebook
