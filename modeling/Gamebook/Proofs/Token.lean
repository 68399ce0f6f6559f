/-
# The written form of tokens

Every token is read back from its text: the identifier takes the first eight
bytes, whatever follows, and a state is a numeral that fits.

Main statement: `ofText_text`.
-/
import Gamebook.Proofs.CellId
import Gamebook.Token

namespace Gamebook.Token

/-- A list of characters is cut at its own size. -/
theorem splitBytes?_append (front back : List Char) :
    splitBytes? (front.map Char.utf8Size).sum (front ++ back) = some (front, back) := by
  induction front with
  | nil => cases back <;> rfl
  | cons c front ih =>
      have hpos : 0 < c.utf8Size := c.utf8Size_pos
      rw [List.map_cons, List.sum_cons, List.cons_append, splitBytes?, if_neg (by omega),
        if_pos (Nat.le_add_right ..), Nat.add_sub_cancel_left, ih]
      rfl

/-- The two parts of a cut are all there was, and the first has the size asked for. -/
theorem eq_append_of_splitBytes? {n : Nat} {cs front back : List Char}
    (h : splitBytes? n cs = some (front, back)) :
    cs = front ++ back ∧ (front.map Char.utf8Size).sum = n := by
  fun_induction splitBytes? n cs generalizing front with
  | case1 => cases h; exact ⟨rfl, rfl⟩
  | case2 => cases h
  | case3 => cases h; exact ⟨rfl, rfl⟩
  | case4 n c cs hn hle ih =>
      obtain ⟨⟨front, back⟩, hcut, hp⟩ := Option.map_eq_some_iff.mp h
      cases hp
      obtain ⟨rfl, hsum⟩ := ih hcut
      refine ⟨rfl, ?_⟩
      rw [List.map_cons, List.sum_cons, hsum, Nat.add_sub_cancel' hle]
  | case5 => cases h

/-- Digits of base sixteen take one byte each. -/
theorem sum_utf8Size_of_isHex {cs : List Char} (h : ∀ c ∈ cs, Text.isHex c = true) :
    (cs.map Char.utf8Size).sum = cs.length := by
  have hone : ∀ c ∈ cs, c.utf8Size = 1 := by
    intro c hc
    exact Char.utf8Size_eq_one_iff.mpr (Nat.le_of_lt_succ (Text.toNat_lt_of_isHex (h c hc)))
  rw [List.map_congr_left hone, List.map_const', List.sum_replicate_nat, Nat.mul_one]

theorem splitBytes?_digits (id : CellId) (rest : List Char) :
    splitBytes? 8 (id.digits ++ rest) = some (id.digits, rest) := by
  have hhex : ∀ c ∈ id.digits, Text.isHex c = true :=
    fun c hc => (Text.isLowerHex_of_mem_hexFixed 8 hc).isHex
  have hsize : (id.digits.map Char.utf8Size).sum = 8 := by
    rw [sum_utf8Size_of_isHex hhex, CellId.length_digits]
  rw [← hsize, splitBytes?_append]

theorem readState_decimal (held : Holdings) :
    readState (Text.decimal held.bits.toNat) = .ok held := by
  have hlt : held.bits.toNat < UInt64.size := held.bits.toNat_lt
  simp only [readState, Text.isNumeral_decimal, if_true, Text.ofDecimal_decimal, if_pos hlt,
    UInt64.ofNat_toNat]

theorem toList_text (t : Token) :
    t.text.toList = t.cell.digits ++ Text.decimal t.held.bits.toNat := by
  simp [text, Holdings.text, Text.decimal]

/-- Every token is read back from its text. -/
@[simp] theorem ofText_text (t : Token) : Token.ofText t.text = .ok t := by
  have hread : read t.text.toList = .ok t := by
    rw [toList_text, read, splitBytes?_digits]
    simp [readState_decimal, Except.map]
  rw [Token.ofText, hread]
  rfl

end Gamebook.Token
