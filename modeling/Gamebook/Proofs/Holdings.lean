/-
# Holdings bit by bit

A mask is known by its bits.  Handing an item over or taking it away changes the
one bit of the item, and whether it is held is that bit; all of this needs only
that the bit is one of the 64.

Main statements: `holds_eq`, `hasBit_insert`, `hasBit_erase`, `ext_of_hasBit`.
-/
import Gamebook.Item
import Mathlib.Data.Nat.Bitwise

namespace Gamebook.Holdings

def hasBit (held : Holdings) (i : Nat) : Bool := held.bits.toNat.testBit i

theorem hasBit_eq_getLsbD (held : Holdings) (i : Nat) :
    held.hasBit i = held.bits.toBitVec.getLsbD i := rfl

@[simp] theorem hasBit_empty (i : Nat) : empty.hasBit i = false := Nat.zero_testBit i

theorem hasBit_of_le {held : Holdings} {i : Nat} (h : 64 ≤ i) : held.hasBit i = false :=
  held.bits.toBitVec.getLsbD_of_ge i h

/-- Holdings with the same bits are the same. -/
theorem ext_of_hasBit {held held' : Holdings} (h : ∀ i < 64, held.hasBit i = held'.hasBit i) :
    held = held' := by
  have hbits : held.bits.toBitVec = held'.bits.toBitVec := BitVec.eq_of_getLsbD_eq h
  obtain ⟨bits⟩ := held
  obtain ⟨bits'⟩ := held'
  exact congrArg Holdings.mk (UInt64.toBitVec_inj.mp hbits)

/-! ## One item -/

section Item

variable {item : Item} (hb : item.bit < 64)
include hb

theorem toNat_mask : item.mask.toNat = 2 ^ item.bit := by
  have hsmall : item.bit % 2 ^ 64 = item.bit := Nat.mod_eq_of_lt (by omega)
  have hpow : 2 ^ item.bit < 2 ^ 64 := Nat.pow_lt_pow_right (by decide) hb
  simp only [Item.mask, UInt64.toNat_shiftLeft, UInt64.toNat_ofNat', hsmall,
    Nat.mod_eq_of_lt hb, UInt64.toNat_one, Nat.one_shiftLeft, Nat.mod_eq_of_lt hpow]

theorem testBit_mask (i : Nat) : item.mask.toNat.testBit i = decide (item.bit = i) := by
  rw [toNat_mask hb, Nat.testBit_two_pow]

/-- Items with different bits have no bit in common. -/
theorem mask_and_mask {other : Item} (ho : other.bit < 64) (hne : item.bit ≠ other.bit) :
    item.mask &&& other.mask = 0 := by
  rw [← UInt64.toNat_inj, UInt64.toNat_and, toNat_mask ho, Nat.and_two_pow, testBit_mask hb,
    decide_eq_false hne]
  simp

theorem hasBit_insert (held : Holdings) (i : Nat) :
    (held.insert item).hasBit i = (held.hasBit i || decide (item.bit = i)) := by
  rw [hasBit, insert, UInt64.toNat_or, Nat.testBit_or, testBit_mask hb]
  rfl

theorem hasBit_erase (held : Holdings) (i : Nat) :
    (held.erase item).hasBit i = (held.hasBit i && !decide (item.bit = i)) := by
  rcases Nat.lt_or_ge i 64 with hlt | hge
  · have hmask : item.mask.toBitVec.getLsbD i = decide (item.bit = i) := testBit_mask hb i
    rw [hasBit_eq_getLsbD, erase, UInt64.toBitVec_and, UInt64.toBitVec_not, BitVec.getLsbD_and,
      BitVec.getLsbD_not, hmask]
    simp [hlt, hasBit_eq_getLsbD]
  · rw [hasBit_of_le hge, hasBit_of_le hge, Bool.false_and]

/-- An item is held if its bit is set. -/
theorem holds_eq (held : Holdings) : held.holds item = held.hasBit item.bit := by
  have hand : (held.bits &&& item.mask).toNat = (held.hasBit item.bit).toNat * 2 ^ item.bit := by
    rw [UInt64.toNat_and, toNat_mask hb, Nat.and_two_pow]
    rfl
  have hzero : held.bits &&& item.mask = 0 ↔ held.hasBit item.bit = false := by
    rw [← UInt64.toNat_inj, hand]
    cases held.hasBit item.bit <;> simp
  simp only [holds, possesses, bne]
  cases h : held.hasBit item.bit with
  | true => simp [hzero, h]
  | false => simp [hzero, h]

end Item

/-! ## Only the bit of an item matters -/

section Congr

variable {item item' : Item} (h : item.bit = item'.bit)
include h

theorem mask_congr : item.mask = item'.mask := by rw [Item.mask, Item.mask, h]

theorem holds_congr (held : Holdings) : held.holds item = held.holds item' := by
  rw [holds, holds, mask_congr h]

theorem insert_congr (held : Holdings) : held.insert item = held.insert item' := by
  rw [insert, insert, mask_congr h]

theorem erase_congr (held : Holdings) : held.erase item = held.erase item' := by
  rw [erase, erase, mask_congr h]

end Congr

end Gamebook.Holdings
