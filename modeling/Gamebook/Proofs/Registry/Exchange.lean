/-
# Giving and taking

To give an item is to set its bit, which is refused where the bit is set; to take it is
to clear the bit, which is refused where the bit is clear.  So each of the two undoes
the other.  Names have bits of their own, so what is done with one name neither shows
in another nor hangs on it, and of two names it does not matter which comes first.

`Exchange` is either of the two with its name, and `Holdings.put` what either does to
the bit: whether it is carried out or refused, the bit is afterwards as it demands
(`Represents.after_eq`).

Main statement: `exchanges_exact`.
-/
import Gamebook.Inventory
import Gamebook.Proofs.Registry.Layout

namespace Gamebook

namespace Holdings

/-! ## An item put in or out -/

/-- The holdings with an item in them or without it. -/
def put (held : Holdings) (item : Item) (there : Bool) : Holdings :=
  if there then held.insert item else held.erase item

section Item

variable {item : Item} (hb : item.bit < 64) (held : Holdings) (there : Bool)
include hb

theorem hasBit_put (i : Nat) :
    (held.put item there).hasBit i = if item.bit = i then there else held.hasBit i := by
  cases there with
  | true =>
      have hinsert : (held.put item true).hasBit i = _ := hasBit_insert hb held i
      by_cases hi : item.bit = i <;> simp [hinsert, hi]
  | false =>
      have herase : (held.put item false).hasBit i = _ := hasBit_erase hb held i
      by_cases hi : item.bit = i <;> simp [herase, hi]

theorem holds_put : (held.put item there).holds item = there := by
  rw [holds_eq hb, hasBit_put hb, if_pos rfl]

theorem holds_put_of_ne {other : Item} (ho : other.bit < 64) (hne : item.bit ≠ other.bit) :
    (held.put item there).holds other = held.holds other := by
  rw [holds_eq ho, holds_eq ho, hasBit_put hb, if_neg hne]

/-- What was put last stays. -/
theorem put_put (there' : Bool) :
    (held.put item there').put item there = held.put item there := by
  refine ext_of_hasBit fun i _ => ?_
  rw [hasBit_put hb, hasBit_put hb, hasBit_put hb]
  split <;> rfl

theorem put_holds : held.put item (held.holds item) = held := by
  refine ext_of_hasBit fun i _ => ?_
  rw [hasBit_put hb, holds_eq hb]
  split
  next hi => rw [hi]
  next => rfl

theorem put_comm {other : Item} (ho : other.bit < 64) (hne : item.bit ≠ other.bit)
    (there' : Bool) :
    (held.put item there).put other there' = (held.put other there').put item there := by
  refine ext_of_hasBit fun i _ => ?_
  rw [hasBit_put ho, hasBit_put hb, hasBit_put hb, hasBit_put ho]
  by_cases hi : item.bit = i
  · have hoi : other.bit ≠ i := fun h => hne (hi.trans h.symm)
    simp [hi, hoi]
  · simp [hi]

end Item

end Holdings

/-! ## Exchanges -/

/-- What may be done with a named item. -/
inductive Exchange where
  | give (name : String)
  | take (name : String)

namespace Exchange

def name : Exchange → String
  | give name => name
  | take name => name

/-- Whether the item is held when it is done. -/
def demands : Exchange → Bool
  | give _ => true
  | take _ => false

end Exchange

/-- A view moves on if there is something to move to. -/
theorem Inventory.moveTo_eq (inv : Inventory) (next : Option Holdings) :
    inv.moveTo next = (next.isSome, { inv with held := next.getD inv.held }) := by
  cases next <;> rfl

namespace IndexedRegistry

/-- Carry an exchange out; `none` if it is refused. -/
def exchange? (r : IndexedRegistry) (held : Holdings) : Exchange → Option Holdings
  | .give name => r.give? held name
  | .take name => r.take? held name

/-- The holdings after an exchange; if it is refused they stay. -/
def after (r : IndexedRegistry) (held : Holdings) (a : Exchange) : Holdings :=
  (r.exchange? held a).getD held

/-- An exchange is carried out where its name is defined and the item is not as it demands. -/
theorem exchange?_eq (r : IndexedRegistry) (held : Holdings) (a : Exchange) :
    r.exchange? held a = (r.lookup? a.name).bind fun item =>
      if held.holds item = a.demands then none else some (held.put item a.demands) := by
  cases a with
  | give name =>
      cases hl : r.lookup? name with
      | none => simp [exchange?, give?, Exchange.name, hl]
      | some item => simp [exchange?, give?, Exchange.name, hl, Exchange.demands, Holdings.put]
  | take name =>
      cases hl : r.lookup? name with
      | none => simp [exchange?, take?, Exchange.name, hl]
      | some item =>
          cases hh : held.holds item <;>
            simp [exchange?, take?, Exchange.name, hl, Exchange.demands, Holdings.put, hh]

theorem exchange?_eq_some_iff {r : IndexedRegistry} {held next : Holdings} {a : Exchange} :
    r.exchange? held a = some next ↔ ∃ item, r.lookup? a.name = some item ∧
      held.holds item = !a.demands ∧ held.put item a.demands = next := by
  rw [exchange?_eq]
  cases hl : r.lookup? a.name with
  | none => simp
  | some item => cases hh : held.holds item <;> cases hd : a.demands <;> simp [hh]

theorem isSome_exchange? (r : IndexedRegistry) (held : Holdings) (a : Exchange) :
    (r.exchange? held a).isSome =
      (r.lookup? a.name).any fun item => held.holds item != a.demands := by
  rw [exchange?_eq]
  cases hl : r.lookup? a.name with
  | none => rfl
  | some item => cases hh : held.holds item <;> cases hd : a.demands <;> simp [hh]

theorem after_of_undefined {r : IndexedRegistry} {a : Exchange} (h : r.lookup? a.name = none)
    (held : Holdings) : r.after held a = held := by
  rw [after, exchange?_eq, h]
  rfl

section Represents

variable {r : IndexedRegistry} {s : Registry} (h : Represents r s)
include h

/-- Carried out or refused, an exchange leaves the bit of its name as it demands. -/
theorem Represents.after_eq {a : Exchange} {item : Item} (hl : r.lookup? a.name = some item)
    (held : Holdings) : r.after held a = held.put item a.demands := by
  rw [after, exchange?_eq, hl, Option.bind_some]
  split
  next hh => rw [← hh, Holdings.put_holds (h.bit_lt hl)]; rfl
  next => rfl

/-- What is done with another name does not change whether an item is held. -/
theorem Represents.holds_after {a : Exchange} {name : String} {item : Item}
    (hl : r.lookup? name = some item) (hne : a.name ≠ name) (held : Holdings) :
    (r.after held a).holds item = held.holds item := by
  cases ha : r.lookup? a.name with
  | none => rw [after_of_undefined ha]
  | some other =>
      rw [h.after_eq ha]
      exact Holdings.holds_put_of_ne (h.bit_lt ha) held _ (h.bit_lt hl) (h.bit_ne ha hl hne)

theorem Represents.isSome_exchange?_after {a b : Exchange} (hne : a.name ≠ b.name)
    (held : Holdings) :
    (r.exchange? (r.after held a) b).isSome = (r.exchange? held b).isSome := by
  rw [isSome_exchange?, isSome_exchange?]
  cases hl : r.lookup? b.name with
  | none => rfl
  | some item => rw [Option.any_some, Option.any_some, h.holds_after hl hne]

theorem Represents.after_comm {a b : Exchange} (hne : a.name ≠ b.name) (held : Holdings) :
    r.after (r.after held a) b = r.after (r.after held b) a := by
  cases ha : r.lookup? a.name with
  | none => rw [after_of_undefined ha, after_of_undefined ha]
  | some item =>
      cases hb : r.lookup? b.name with
      | none => rw [after_of_undefined hb, after_of_undefined hb]
      | some other =>
          rw [h.after_eq ha, h.after_eq hb, h.after_eq hb, h.after_eq ha]
          exact Holdings.put_comm (h.bit_lt ha) held _ (h.bit_lt hb) (h.bit_ne ha hb hne) _

/-- An exchange that was carried out is undone by the one that demands the opposite. -/
theorem Represents.exchange?_undo {held next : Holdings} {a b : Exchange} (hname : b.name = a.name)
    (hdemands : b.demands = !a.demands) (hnext : r.exchange? held a = some next) :
    r.exchange? next b = some held := by
  obtain ⟨item, hl, hheld, rfl⟩ := exchange?_eq_some_iff.mp hnext
  have hbit := h.bit_lt hl
  refine exchange?_eq_some_iff.mpr ⟨item, hname ▸ hl, ?_, ?_⟩
  · rw [Holdings.holds_put hbit, hdemands, Bool.not_not]
  · rw [Holdings.put_put hbit, hdemands, ← hheld, Holdings.put_holds hbit]

end Represents

/-- When an exchange is carried out and what it changes, that the two kinds undo each other, that
those of different names do not meet, and that a view of the same items makes the same. -/
structure ExchangesExactly (r : IndexedRegistry) : Prop where
  given_iff : ∀ held name, (∃ next, r.give? held name = some next) ↔
    ∃ item, r.lookup? name = some item ∧ held.holds item = false
  taken_iff : ∀ held name, (∃ next, r.take? held name = some next) ↔
    ∃ item, r.lookup? name = some item ∧ held.holds item = true
  changes : ∀ held a next, r.exchange? held a = some next →
    ∃ item, r.lookup? a.name = some item ∧ next.holds item = !held.holds item ∧
      (∀ other ∈ r.items, other.name ≠ a.name → next.holds other = held.holds other) ∧
      ∀ i, i ≠ item.bit → next.hasBit i = held.hasBit i
  take_give : ∀ held next name, r.give? held name = some next → r.take? next name = some held
  give_take : ∀ held next name, r.take? held name = some next → r.give? next name = some held
  apart : ∀ held a b, a.name ≠ b.name →
    r.after (r.after held a) b = r.after (r.after held b) a ∧
      (r.exchange? (r.after held b) a).isSome = (r.exchange? held a).isSome ∧
      (r.exchange? (r.after held a) b).isSome = (r.exchange? held b).isSome
  views : ∀ inv : Inventory, inv.registry.items = r.items → ∀ name,
    inv.add name = ((r.give? inv.held name).isSome,
      { inv with held := r.after inv.held (.give name) }) ∧
    inv.remove name = ((r.take? inv.held name).isSome,
      { inv with held := r.after inv.held (.take name) })

/-- Giving and taking are exact, whatever was loaded and defined. -/
theorem exchanges_exact {r : IndexedRegistry} (h : Reached r) : ExchangesExactly r := by
  obtain ⟨s, hs⟩ := h.represents
  have hcarried : ∀ held a, (∃ next, r.exchange? held a = some next) ↔
      ∃ item, r.lookup? a.name = some item ∧ held.holds item = !a.demands := by
    intro held a
    simp only [exchange?_eq_some_iff]
    exact ⟨fun ⟨_, item, hl, hheld, _⟩ => ⟨item, hl, hheld⟩,
      fun ⟨item, hl, hheld⟩ => ⟨_, item, hl, hheld, rfl⟩⟩
  constructor
  case given_iff => exact fun held name => hcarried held (.give name)
  case taken_iff => exact fun held name => hcarried held (.take name)
  case changes =>
    intro held a next hnext
    obtain ⟨item, hl, hheld, rfl⟩ := exchange?_eq_some_iff.mp hnext
    have hbit := hs.bit_lt hl
    refine ⟨item, hl, ?_, fun other hother hne => ?_, fun i hi => ?_⟩
    · rw [Holdings.holds_put hbit, hheld, Bool.not_not]
    · have hl' := (hs.consistent.lookup? other.name other).mpr ⟨hother, rfl⟩
      exact Holdings.holds_put_of_ne hbit held _ (hs.bit_lt hl') (hs.bit_ne hl hl' hne.symm)
    · rw [Holdings.hasBit_put hbit, if_neg hi.symm]
  case take_give =>
    intro held next name hnext
    exact hs.exchange?_undo (a := .give name) (b := .take name) rfl rfl hnext
  case give_take =>
    intro held next name hnext
    exact hs.exchange?_undo (a := .take name) (b := .give name) rfl rfl hnext
  case apart =>
    intro held a b hne
    exact ⟨hs.after_comm hne held, hs.isSome_exchange?_after hne.symm held,
      hs.isSome_exchange?_after hne held⟩
  case views =>
    intro inv hitems name
    have hregistry : inv.registry = s := Registry.items_injective (hitems.trans hs.items)
    constructor
    · rw [Inventory.add, Inventory.moveTo_eq, hregistry, ← hs.give?]
      rfl
    · rw [Inventory.remove, Inventory.moveTo_eq, hregistry, ← hs.take?]
      rfl

/-- The item of the last bit is taken and given back, and taken beside another that is given. -/
theorem exchanges_exact_full :
    Reached full ∧ marks 63 ≠ marks 1 ∧
      full.take? ⟨0x8000000000000001⟩ (marks 63) = some ⟨1⟩ ∧
      full.give? ⟨1⟩ (marks 63) = some ⟨0x8000000000000001⟩ ∧
      full.after (full.after ⟨0x8000000000000001⟩ (.give (marks 1))) (.take (marks 63)) = ⟨3⟩ := by
  obtain ⟨hne, htake, hgive⟩ : marks 63 ≠ marks 1 ∧
      full.take? ⟨0x8000000000000001⟩ (marks 63) = some ⟨1⟩ ∧
      full.after (full.after ⟨0x8000000000000001⟩ (.take (marks 63))) (.give (marks 1)) = ⟨3⟩ := by
    decide +kernel
  have hexact := exchanges_exact reached_full
  refine ⟨reached_full, hne, htake, hexact.give_take _ _ _ htake, ?_⟩
  rw [← (hexact.apart ⟨0x8000000000000001⟩ (.take (marks 63)) (.give (marks 1)) hne).1, hgive]

end IndexedRegistry

end Gamebook
