/-
# Which lists of items load

A load puts the items in the order of their bits and walks them, entering each name at
its place.  The walk does what defining the items one after the other would do
(`defineAll_of_enter`), so what it accepts is what definitions leave, in any order: as
many items as there are bits at most, each bit from 0 on taken once, each name once
(`exists_ofItems_iff`).

What it refuses it refuses at the first place where something is wrong (`FirstFlaw`).
Items of one bit keep the order in which they came, so this place depends on the order
only where a bit is taken twice.

Main statement: `ofItems_exact`.
-/
import Gamebook.Proofs.Registry.Indexed
import Gamebook.Saved.Registry
import Mathlib.Data.List.Nodup

namespace Gamebook

namespace Registry

/-! ## Items in the order of their bits -/

/-- The same items with ascending bits, those of one bit in the order in which they came. -/
structure StablySorted (items sorted : List Item) : Prop where
  perm : sorted.Perm items
  ascending : sorted.Pairwise fun a b => a.bit ≤ b.bit
  stable : ∀ bit, (sorted.filter fun item => item.bit = bit) =
    items.filter fun item => item.bit = bit

theorem sortByBit_perm (items : List Item) : (sortByBit items).Perm items :=
  List.mergeSort_perm ..

theorem length_sortByBit (items : List Item) : (sortByBit items).length = items.length :=
  (sortByBit_perm items).length_eq

theorem stablySorted_sortByBit (items : List Item) : StablySorted items (sortByBit items) := by
  have htrans : ∀ a b c : Item, decide (a.bit ≤ b.bit) = true → decide (b.bit ≤ c.bit) = true →
      decide (a.bit ≤ c.bit) = true := by
    intro a b c hab hbc
    simpa using Nat.le_trans (of_decide_eq_true hab) (of_decide_eq_true hbc)
  have htotal : ∀ a b : Item, (decide (a.bit ≤ b.bit) || decide (b.bit ≤ a.bit)) = true := by
    intro a b
    simpa using Nat.le_total a.bit b.bit
  refine ⟨sortByBit_perm items, ?_, fun bit => ?_⟩
  · exact (List.pairwise_mergeSort htrans htotal items).imp of_decide_eq_true
  · -- items of one bit are in order as they came, so they are in this order afterwards
    have hchosen : (items.filter fun item => item.bit = bit).Pairwise fun a b =>
        decide (a.bit ≤ b.bit) = true := by
      refine List.pairwise_of_forall_mem_list fun a ha b hb => ?_
      have ha : a.bit = bit := by simpa using (List.mem_filter.mp ha).2
      have hb : b.bit = bit := by simpa using (List.mem_filter.mp hb).2
      simp [ha, hb]
    have hsublist := List.sublist_mergeSort htrans htotal hchosen List.filter_sublist
    have hfilter := hsublist.filter fun item => decide (item.bit = bit)
    rw [List.filter_filter, ← sortByBit] at hfilter
    simp only [Bool.and_self] at hfilter
    exact (hfilter.eq_of_length ((sortByBit_perm items).filter _).symm.length_eq).symm

/-- Where bits are apart, the order of the bits leaves no choice. -/
theorem sortByBit_eq_of_perm {items items' : List Item} (h : items'.Perm items)
    (hbits : (items.map Item.bit).Nodup) : sortByBit items' = sortByBit items := by
  have hperm : (sortByBit items').Perm (sortByBit items) :=
    (sortByBit_perm items').trans (h.trans (sortByBit_perm items).symm)
  refine hperm.eq_of_pairwise ?_ (stablySorted_sortByBit items').ascending
    (stablySorted_sortByBit items).ascending
  intro a b ha hb hab hba
  have ha : a ∈ items := h.mem_iff.mp ((sortByBit_perm items').mem_iff.mp ha)
  have hb : b ∈ items := (sortByBit_perm items).mem_iff.mp hb
  exact List.inj_on_of_nodup_map hbits ha hb (Nat.le_antisymm hab hba)

/-! ## Layouts without a flaw -/

/-- There are no more items than bits, they take the bits from 0 on, and their names are apart. -/
structure WellLaid (items : List Item) : Prop where
  length_le : items.length ≤ 64
  bits : (items.map Item.bit).Perm (List.range items.length)
  names : (items.map Item.name).Nodup

theorem WellLaid.of_perm {items items' : List Item} (h : WellLaid items)
    (hperm : items'.Perm items) : WellLaid items' where
  length_le := hperm.length_eq ▸ h.length_le
  bits := by
    rw [hperm.length_eq]
    exact (hperm.map _).trans h.bits
  names := (hperm.map _).nodup_iff.mpr h.names

theorem WellLaid.nodup_bits {items : List Item} (h : WellLaid items) :
    (items.map Item.bit).Nodup := h.bits.nodup_iff.mpr List.nodup_range

theorem wellLaid_items (r : Registry) : WellLaid r.items where
  length_le := r.length_le
  bits := .of_eq r.bits_eq
  names := r.names_nodup

/-- In order, the bits from 0 on are the places. -/
theorem map_bit_sortByBit_eq_iff (items : List Item) :
    (sortByBit items).map Item.bit = List.range items.length ↔
      (items.map Item.bit).Perm (List.range items.length) := by
  have hperm := (sortByBit_perm items).map Item.bit
  constructor
  · intro h
    rw [← h]
    exact hperm.symm
  · intro h
    have hsorted : ((sortByBit items).map Item.bit).Pairwise (· ≤ ·) :=
      List.pairwise_map.mpr (stablySorted_sortByBit items).ascending
    refine (hperm.trans h).eq_of_pairwise ?_ hsorted List.pairwise_le_range
    exact fun a b _ _ hab hba => Nat.le_antisymm hab hba

/-- The walk finds nothing wrong exactly in a layout without a flaw. -/
theorem wellLaid_iff_firstFault? {items : List Item} (hroom : items.length ≤ 64) :
    WellLaid items ↔ firstFault? 0 [] (sortByBit items) = none := by
  have hnames : ((sortByBit items).map Item.name).Nodup ↔ (items.map Item.name).Nodup :=
    ((sortByBit_perm items).map Item.name).nodup_iff
  rw [firstFault?_eq_none_iff, ← List.range_eq_range', length_sortByBit, map_bit_sortByBit_eq_iff,
    hnames]
  constructor
  · exact fun h => ⟨h.bits, h.names, fun _ _ => List.not_mem_nil⟩
  · exact fun ⟨hbits, hnames, _⟩ => ⟨hroom, hbits, hnames⟩

/-! ## Flaws -/

/-- What is wrong at a place of a sorted list: the bit, or else the name, which an earlier place
has. -/
inductive Flaw (sorted : List Item) (slot : Nat) : LayoutFault → Prop
  | wrongBit {item : Item} : sorted[slot]? = some item → item.bit ≠ slot →
      Flaw sorted slot (.wrongBit item.name item.bit slot)
  | definedTwice {item other : Item} {earlier : Nat} : sorted[slot]? = some item →
      item.bit = slot → earlier < slot → sorted[earlier]? = some other → other.name = item.name →
      Flaw sorted slot (.definedTwice item.name)

/-- The fault is that of the first place where something is wrong. -/
def FirstFlaw (sorted : List Item) (fault : LayoutFault) : Prop :=
  ∃ slot, Flaw sorted slot fault ∧ ∀ earlier < slot, ∀ other, ¬ Flaw sorted earlier other

theorem Flaw.unique {sorted : List Item} {slot : Nat} {fault fault' : LayoutFault}
    (h : Flaw sorted slot fault) (h' : Flaw sorted slot fault') : fault = fault' := by
  cases h with
  | wrongBit hitem hbit =>
      cases h' with
      | wrongBit hitem' =>
          obtain rfl := Option.some.inj (hitem.symm.trans hitem')
          rfl
      | definedTwice hitem' hbit' =>
          obtain rfl := Option.some.inj (hitem.symm.trans hitem')
          exact absurd hbit' hbit
  | definedTwice hitem hbit =>
      cases h' with
      | wrongBit hitem' hbit' =>
          obtain rfl := Option.some.inj (hitem.symm.trans hitem')
          exact absurd hbit hbit'
      | definedTwice hitem' =>
          obtain rfl := Option.some.inj (hitem.symm.trans hitem')
          rfl

theorem FirstFlaw.unique {sorted : List Item} {fault fault' : LayoutFault}
    (h : FirstFlaw sorted fault) (h' : FirstFlaw sorted fault') : fault = fault' := by
  obtain ⟨slot, hflaw, hfirst⟩ := h
  obtain ⟨slot', hflaw', hfirst'⟩ := h'
  rcases Nat.lt_trichotomy slot slot' with hlt | rfl | hlt
  · exact absurd hflaw (hfirst' slot hlt fault)
  · exact hflaw.unique hflaw'
  · exact absurd hflaw' (hfirst slot' hlt fault')

/-- Nothing is wrong at a place whose item has its bit and a name that no earlier place has. -/
theorem not_flaw_of_new {front rest : List Item} {item : Item} (hbit : item.bit = front.length)
    (hnew : item.name ∉ front.map Item.name) (fault : LayoutFault) :
    ¬ Flaw (front ++ item :: rest) front.length fault := by
  have hplace : (front ++ item :: rest)[front.length]? = some item := by simp
  intro h
  cases h with
  | wrongBit hitem hwrong =>
      obtain rfl := Option.some.inj (hplace.symm.trans hitem)
      exact hwrong hbit
  | @definedTwice _ other earlier hitem _ hlt hother hsame =>
      obtain rfl := Option.some.inj (hplace.symm.trans hitem)
      rw [List.getElem?_append_left hlt] at hother
      exact hnew (List.mem_map.mpr ⟨other, List.mem_of_getElem? hother, hsame⟩)

/-- The walk from a place on, where nothing is wrong in front of it and the names in front are
those seen: it stops at the first place where something is wrong, or nothing is wrong anywhere. -/
theorem firstFault?_cases (rest : List Item) :
    ∀ {front : List Item} {seen : List String},
      (∀ name, name ∈ seen ↔ name ∈ front.map Item.name) →
      (∀ slot < front.length, ∀ fault, ¬ Flaw (front ++ rest) slot fault) →
      (∃ fault, firstFault? front.length seen rest = some fault ∧
        FirstFlaw (front ++ rest) fault) ∨
      (firstFault? front.length seen rest = none ∧
        ∀ fault, ¬ FirstFlaw (front ++ rest) fault) := by
  induction rest with
  | nil =>
      intro front seen hseen hfront
      refine Or.inr ⟨rfl, ?_⟩
      rintro fault ⟨slot, hflaw, -⟩
      refine hfront slot ?_ fault hflaw
      cases hflaw with
      | wrongBit hitem => simpa using (List.getElem?_eq_some_iff.mp hitem).1
      | definedTwice hitem => simpa using (List.getElem?_eq_some_iff.mp hitem).1
  | cons item rest ih =>
      intro front seen hseen hfront
      have hplace : (front ++ item :: rest)[front.length]? = some item := by simp
      by_cases hbit : item.bit = front.length
      · by_cases hname : item.name ∈ seen
        · obtain ⟨other, hother, hsame⟩ := List.mem_map.mp ((hseen _).mp hname)
          obtain ⟨earlier, hearlier⟩ := List.getElem?_of_mem hother
          have hlt : earlier < front.length := (List.getElem?_eq_some_iff.mp hearlier).1
          have hbefore : (front ++ item :: rest)[earlier]? = some other := by
            rw [List.getElem?_append_left hlt, hearlier]
          refine Or.inl ⟨.definedTwice item.name, by simp [firstFault?, hbit, hname], ?_⟩
          exact ⟨front.length, .definedTwice hplace hbit hlt hbefore hsame, hfront⟩
        · -- the item stands where it should, so the walk goes on behind it
          have hstep : firstFault? front.length seen (item :: rest) =
              firstFault? (front ++ [item]).length (item.name :: seen) rest := by
            simp [firstFault?, hbit, hname]
          have hsplit : front ++ item :: rest = (front ++ [item]) ++ rest := by simp
          rw [hstep, hsplit]
          refine ih (fun name => ?_) fun slot hslot fault => ?_
          · simp [hseen, or_comm]
          · rw [← hsplit]
            rcases Nat.lt_or_eq_of_le (Nat.le_of_lt_succ (by simpa using hslot)) with hlt | rfl
            · exact hfront slot hlt fault
            · exact not_flaw_of_new hbit (fun h => hname ((hseen _).mpr h)) fault
      · refine Or.inl ⟨.wrongBit item.name item.bit front.length, by simp [firstFault?, hbit], ?_⟩
        exact ⟨front.length, .wrongBit hplace hbit, hfront⟩

/-- The fault that the walk finds is that of the first place where something is wrong. -/
theorem firstFault?_eq_some_iff {items : List Item} {fault : LayoutFault} :
    firstFault? 0 [] items = some fault ↔ FirstFlaw items fault := by
  have hcases := @firstFault?_cases items [] [] (fun _ => Iff.rfl)
    fun slot hslot => absurd hslot (Nat.not_lt_zero slot)
  rcases hcases with ⟨found, hfound, hflaw⟩ | ⟨hnone, hnever⟩
  · have hfound : firstFault? 0 [] items = some found := hfound
    rw [hfound, Option.some.injEq]
    exact ⟨fun h => h ▸ hflaw, fun h => hflaw.unique h⟩
  · have hnone : firstFault? 0 [] items = none := hnone
    rw [hnone]
    exact ⟨(nomatch ·), fun h => absurd h (hnever fault)⟩

/-- A load that is refused is refused for its length or for its first flaw. -/
theorem ofItems_eq_error_iff {items : List Item} {fault : Fault} :
    ofItems items = .error fault ↔
      (64 < items.length ∧ fault = .invalidLayout (.tooMany items.length)) ∨
      (items.length ≤ 64 ∧ ∃ flaw, FirstFlaw (sortByBit items) flaw ∧
        fault = .invalidLayout flaw) := by
  by_cases hroom : items.length ≤ 64
  · have hroom' : ¬ 64 < items.length := Nat.not_lt_of_le hroom
    simp only [← firstFault?_eq_some_iff, hroom, hroom', false_and, true_and, false_or]
    rw [ofItems, dif_pos (show items.length ≤ capacity from hroom)]
    split
    next found h => simp [h, eq_comm]
    next h => simp [h]
  · have hmany : 64 < items.length := Nat.lt_of_not_le hroom
    rw [ofItems, dif_neg (show ¬ items.length ≤ capacity from hroom)]
    simp [hroom, hmany, eq_comm]

end Registry

namespace IndexedRegistry

open Registry (StablySorted WellLaid FirstFlaw sortByBit)

/-! ## Definitions in order -/

/-- Define items in order; a definition that is refused leaves the registry as it was. -/
def defineAll (r : IndexedRegistry) (ds : List (String × String)) : IndexedRegistry :=
  ds.foldl (fun r d => (r.define d.1 d.2).2) r

/-- What is said when items are defined. -/
def definitions (items : List Item) : List (String × String) :=
  items.map fun item => (item.name, item.description)

theorem Reached.defineAll (ds : List (String × String)) :
    ∀ {r : IndexedRegistry}, Reached r → Reached (r.defineAll ds) := by
  induction ds with
  | nil => exact fun h => h
  | cons d ds ih => exact fun h => ih (h.define d.1 d.2)

/-- A row of marks, as a name. -/
def marks (n : Nat) : String := String.ofList (List.replicate n 'x')

/-- A registry in which every bit is taken, each by the item with as many marks. -/
def full : IndexedRegistry := empty.defineAll ((List.range 64).map fun n => (marks n, ""))

theorem reached_full : Reached full := Reached.empty.defineAll _

/-- A new name is put behind the others, so long as there is a bit. -/
theorem define_eq_push {r : IndexedRegistry} {name : String} (hnew : r.slots.lookup name = none)
    (hroom : r.items.length < 64) (description : String) :
    (r.define name description).2 = r.push name description := by
  have hfits : ¬ capacity ≤ r.items.length := Nat.not_le_of_lt hroom
  simp only [define, hnew, if_neg hfits]

/-- To enter items that stand where they should is to define them one after the other. -/
theorem defineAll_of_enter (rest : List Item) :
    ∀ {front : List Item} {slots index : List (String × Nat)},
      enter slots front.length rest = .ok index → front.length + rest.length ≤ 64 →
      defineAll ⟨front, slots⟩ (definitions rest) = ⟨front ++ rest, index⟩ := by
  induction rest with
  | nil =>
      intro front slots index henter _
      obtain rfl := Except.ok.inj henter
      rw [List.append_nil]
      rfl
  | cons item rest ih =>
      intro front slots index henter hroom
      rw [List.length_cons] at hroom
      obtain ⟨hbit, hnew, hrest⟩ := enter_cons_eq_ok_iff.mp henter
      have hbyte : (UInt8.ofNat front.length).toNat = item.bit := by
        rw [UInt8.toNat_ofNat', Nat.mod_eq_of_lt (by omega), hbit]
      have hpush : push ⟨front, slots⟩ item.name item.description =
          ⟨front ++ [item], (item.name, front.length) :: slots⟩ := by
        simp only [push, hbyte]
      have hlength : (front ++ [item]).length = front.length + 1 := by simp
      have hfits : front.length < 64 := by omega
      rw [← hlength] at hrest
      have hnext := ih hrest (by omega)
      rw [List.append_assoc, List.singleton_append] at hnext
      rw [← hnext, ← hpush, ← define_eq_push hnew hfits]
      rfl

/-! ## Loading -/

theorem ofItems_eq_ok_iff {items : List Item} {r : IndexedRegistry} :
    ofItems items = .ok r ↔ items.length ≤ 64 ∧ r.items = sortByBit items ∧
      enter [] 0 (sortByBit items) = .ok r.slots := by
  obtain ⟨sorted, slots⟩ := r
  by_cases hroom : items.length ≤ 64
  · have hfits : ¬ capacity < items.length := Nat.not_lt_of_le hroom
    rw [ofItems, if_neg hfits]
    cases henter : enter [] 0 (sortByBit items) with
    | error flaw => simp [henter]
    | ok index => simp [henter, hroom, eq_comm]
  · have hmany : capacity < items.length := Nat.lt_of_not_le hroom
    rw [ofItems, if_pos hmany]
    simp [hroom]

/-- A load is accepted exactly in a layout without a flaw. -/
theorem exists_ofItems_iff {items : List Item} : (∃ r, ofItems items = .ok r) ↔ WellLaid items := by
  constructor
  · rintro ⟨r, hr⟩
    obtain ⟨s, hs⟩ := (Reached.load hr).represents
    have hlaid : WellLaid r.items := hs.items ▸ Registry.wellLaid_items s
    rw [(ofItems_eq_ok_iff.mp hr).2.1] at hlaid
    exact hlaid.of_perm (Registry.sortByBit_perm items).symm
  · intro hlaid
    rcases ofItems_cases items with ⟨fault, hfault, -⟩ | ⟨r, -, -, hr, -⟩
    · rcases Registry.ofItems_eq_error_iff.mp hfault with ⟨hmany, -⟩ | ⟨hroom, flaw, hflaw, -⟩
      · exact absurd hlaid.length_le (Nat.not_le_of_lt hmany)
      · rw [← Registry.firstFault?_eq_some_iff,
          (Registry.wellLaid_iff_firstFault? hroom).mp hlaid] at hflaw
        exact nomatch hflaw
    · exact ⟨r, hr⟩

/-- What a load has done is what definitions in the order of the bits do. -/
theorem eq_defineAll_of_ofItems {items : List Item} {r : IndexedRegistry}
    (h : ofItems items = .ok r) : r = empty.defineAll (definitions (sortByBit items)) := by
  obtain ⟨hroom, hitems, henter⟩ := ofItems_eq_ok_iff.mp h
  rw [← Registry.length_sortByBit] at hroom
  have hdefine := @defineAll_of_enter (sortByBit items) [] [] _ henter (by simpa using hroom)
  rw [empty, hdefine, List.nil_append, ← hitems]

theorem ofItems_of_perm {items items' : List Item} {r : IndexedRegistry}
    (h : ofItems items = .ok r) (hperm : items'.Perm items) : ofItems items' = .ok r := by
  have hlaid : WellLaid items := exists_ofItems_iff.mp ⟨r, h⟩
  rw [ofItems_eq_ok_iff] at h ⊢
  rwa [hperm.length_eq, Registry.sortByBit_eq_of_perm hperm hlaid.nodup_bits]

/-- Which lists of items load, what comes of them, and why the others are refused. -/
structure LoadsExactly (items : List Item) : Prop where
  sorted : StablySorted items (sortByBit items)
  accepted_iff_defined : (∃ r, ofItems items = .ok r) ↔
    ∃ ds, items.Perm (empty.defineAll ds).items
  accepted_iff_wellLaid : (∃ r, ofItems items = .ok r) ↔ WellLaid items
  defined : ∀ r, ofItems items = .ok r → r = empty.defineAll (definitions (sortByBit items))
  unordered : ∀ r, ofItems items = .ok r → ∀ items', items'.Perm items → ofItems items' = .ok r
  saved : ∀ r, ofItems items = .ok r → r.items = sortByBit items ∧
    ∃ s, Registry.ofItems items = .ok s ∧ Represents r s ∧
      Saved.saveRegistry s = .arr ((sortByBit items).map Saved.saveItem)
  refused_iff : ∀ fault, ofItems items = .error fault ↔
    (64 < items.length ∧ fault = .invalidLayout (.tooMany items.length)) ∨
    (items.length ≤ 64 ∧ ∃ flaw, FirstFlaw (sortByBit items) flaw ∧ fault = .invalidLayout flaw)

/-- Items load exactly if definitions can have made them, in whatever order they come, and they
load to what the definitions make; else the first place that is wrong is reported. -/
theorem ofItems_exact (items : List Item) : LoadsExactly items where
  sorted := Registry.stablySorted_sortByBit items
  accepted_iff_defined := by
    constructor
    · rintro ⟨r, hr⟩
      refine ⟨definitions (sortByBit items), ?_⟩
      rw [← eq_defineAll_of_ofItems hr, (ofItems_eq_ok_iff.mp hr).2.1]
      exact (Registry.sortByBit_perm items).symm
    · rintro ⟨ds, hperm⟩
      obtain ⟨s, hs⟩ := (Reached.empty.defineAll ds).represents
      rw [hs.items] at hperm
      exact exists_ofItems_iff.mpr ((Registry.wellLaid_items s).of_perm hperm)
  accepted_iff_wellLaid := exists_ofItems_iff
  defined := fun _ => eq_defineAll_of_ofItems
  unordered := fun _ h _ => ofItems_of_perm h
  saved := by
    intro r hr
    have hitems := (ofItems_eq_ok_iff.mp hr).2.1
    rcases ofItems_cases items with ⟨fault, -, hfault⟩ | ⟨r', s, hs, hr', hrep⟩
    · exact nomatch hr.symm.trans hfault
    · obtain rfl := Except.ok.inj (hr.symm.trans hr')
      refine ⟨hitems, s, hs, hrep, ?_⟩
      rw [Saved.saveRegistry, ← hrep.items, hitems]
  refused_iff := by
    intro fault
    rw [← Registry.ofItems_eq_error_iff]
    rcases ofItems_cases items with ⟨found, hs, hr⟩ | ⟨r, s, hs, hr, -⟩
    · rw [hs, hr, Except.error.injEq, Except.error.injEq]
    · rw [hs, hr]
      exact ⟨(nomatch ·), (nomatch ·)⟩

/-- Of two items with the first bit the one that came later stands where it should not. -/
example : ofItems [⟨"rope", 1, "Long"⟩, ⟨"lamp", 0, ""⟩, ⟨"key", 0, ""⟩] =
    .error (.invalidLayout (.wrongBit "key" 0 1)) := by cbv

end IndexedRegistry

end Gamebook
