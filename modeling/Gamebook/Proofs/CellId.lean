/-
# The written form of cell identifiers

Eight digits are read back as the identifier that they were written for, and
identifiers are in the order of their texts.

Main statements: `ofText_text`, `text_lt_text_iff`.
-/
import Gamebook.Fault
import Gamebook.Proofs.Text.Numeral

namespace Gamebook.CellId

theorem value_lt (id : CellId) : id.value.toNat < 16 ^ 8 := id.value.toNat_lt

@[simp] theorem length_digits (id : CellId) : id.digits.length = 8 := Text.length_hexFixed ..

@[simp] theorem ofDigits?_digits (id : CellId) : ofDigits? id.digits = some id := by
  have hread : Text.ofHex? id.digits = some id.value.toNat := by
    rw [digits, Text.ofHex?_hexFixed, Nat.mod_eq_of_lt id.value_lt]
  simp [ofDigits?, hread]

/-- An identifier that was read is written with the same digits, in lower case. -/
theorem digits_of_ofDigits? {cs : List Char} {id : CellId} (h : ofDigits? cs = some id) :
    id.digits = cs.map Char.toLower := by
  rw [ofDigits?] at h
  split at h
  case isTrue hlength =>
    obtain ⟨n, hn, rfl⟩ := Option.map_eq_some_iff.mp h
    have hlt : n < UInt32.size := by
      have h := Text.lt_of_ofHex? hn
      rwa [hlength] at h
    have hvalue : (UInt32.ofNat n).toNat = n := UInt32.toNat_ofNat_of_lt hlt
    simp only [digits, hvalue]
    rw [← hlength, Text.hexFixed_of_ofHex? hn]
  case isFalse => cases h

@[simp] theorem toList_text (id : CellId) : id.text.toList = id.digits := String.toList_ofList

/-- The written form is read back. -/
@[simp] theorem ofText_text (id : CellId) : CellId.ofText id.text = .ok id := by
  simp [CellId.ofText, ofText?]

/-- Identifiers are in the order of their texts. -/
theorem text_lt_text_iff {a b : CellId} : a.text < b.text ↔ a < b := by
  rw [String.lt_iff, toList_text, toList_text, digits, digits,
    Text.hexFixed_lt_hexFixed_iff a.value_lt b.value_lt]
  exact UInt32.lt_iff_toNat_lt.symm

end Gamebook.CellId
