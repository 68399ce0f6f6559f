/-
# Numerals read back

Decimal digits, padded or not, write one number, and the digits of a fixed width
in base sixteen write it modulo the numbers of that width.  The other way round, a
number that was read is written with the digits it was read from, but for zeros in
front of a decimal and for the case of a letter.  Of two numbers that fit the width
the smaller has the smaller text: that needs the fixed width, and that the letters
come after the digits.

Main statements: `ofDecimal_decimalPadded`, `decimal_ofDecimal`, `ofHex?_hexFixed`,
`hexFixed_of_ofHex?`, `hexFixed_lt_hexFixed_iff`.
-/
import Gamebook.Text.Numeral
import Mathlib.Data.List.Induction
import Mathlib.Data.Nat.Bitwise

namespace Gamebook.Text

/-- What holds of the first codes holds of every character among them: digits are few, so that a
fact about all of them can be looked up. -/
theorem of_toNat_lt {p : Char → Prop} {bound : Nat} (hall : ∀ n < bound, p (Char.ofNat n))
    {c : Char} (h : c.toNat < bound) : p c := by
  rw [← Char.ofNat_toNat c]
  exact hall c.toNat h

/-! ## Decimal digits -/

theorem ofDecimal_eq_ofDigitChars (cs : List Char) : ofDecimal cs = Nat.ofDigitChars 10 cs 0 :=
  rfl

@[simp] theorem ofDecimal_decimal (n : Nat) : ofDecimal (decimal n) = n := by
  rw [ofDecimal_eq_ofDigitChars, decimal, Nat.ofDigitChars_ten_toDigits]

@[simp] theorem ofDecimal_decimalPadded (width n : Nat) :
    ofDecimal (decimalPadded width n) = n := by
  rw [ofDecimal_eq_ofDigitChars, decimalPadded, Nat.ofDigitChars_append,
    Nat.ofDigitChars_replicate_zero, Nat.mul_zero, ← ofDecimal_eq_ofDigitChars, ofDecimal_decimal]

theorem isDigit_of_mem_decimal {n : Nat} {c : Char} (h : c ∈ decimal n) : c.isDigit = true :=
  Nat.isDigit_of_mem_toDigits (by decide) (by decide) h

theorem isDigit_of_mem_decimalPadded {width n : Nat} {c : Char} (h : c ∈ decimalPadded width n) :
    c.isDigit = true := by
  rcases List.mem_append.mp h with h | h
  · rw [List.eq_of_mem_replicate h]; rfl
  · exact isDigit_of_mem_decimal h

theorem decimal_ne_nil (n : Nat) : decimal n ≠ [] := Nat.toDigits_ne_nil

theorem decimalPadded_ne_nil (width n : Nat) : decimalPadded width n ≠ [] := by
  simp [decimalPadded, decimal_ne_nil]

theorem isNumeral_decimal (n : Nat) : isNumeral (decimal n) = true := by
  have hall : (decimal n).all Char.isDigit = true :=
    List.all_eq_true.mpr fun _ hc => isDigit_of_mem_decimal hc
  simp [isNumeral, hall, decimal_ne_nil]

theorem ofDecimal_concat (cs : List Char) (c : Char) :
    ofDecimal (cs ++ [c]) = 10 * ofDecimal cs + digitValue c := by
  simp [ofDecimal]

theorem toNat_lt_of_isDigit {c : Char} (h : c.isDigit = true) : c.toNat < 128 := by
  simp only [Char.isDigit, Bool.and_eq_true, decide_eq_true_eq] at h
  exact Nat.lt_of_le_of_lt h.2 (by decide)

theorem digitValue_of_isDigit {c : Char} (h : c.isDigit = true) :
    digitValue c < 10 ∧ Nat.digitChar (digitValue c) = c :=
  of_toNat_lt
    (p := fun c => c.isDigit = true → digitValue c < 10 ∧ Nat.digitChar (digitValue c) = c)
    (by decide) (toNat_lt_of_isDigit h) h

theorem decimal_of_lt {d : Nat} (h : d < 10) : decimal d = [Nat.digitChar d] :=
  Nat.toDigits_of_lt_base h

/-- A digit behind those of a number, which must not be zero. -/
theorem decimal_concat {n d : Nat} (hn : 0 < n) (hd : d < 10) :
    decimal (10 * n + d) = decimal n ++ [Nat.digitChar d] := by
  rw [decimal, ← Nat.toDigits_append_toDigits (by decide) hn hd, Nat.toDigits_of_lt_base hd,
    decimal]

/-- No zero stands in front of other digits. -/
def Minimal (cs : List Char) : Prop := cs.head? = some '0' → cs = ['0']

theorem Minimal.head?_ne {cs : List Char} {c : Char} (h : Minimal (cs ++ [c])) (hne : cs ≠ []) :
    cs.head? ≠ some '0' := by
  intro hzero
  have hsingle : cs ++ [c] = ['0'] := h (by rw [List.head?_append, hzero]; rfl)
  exact hne (List.append_eq_singleton_iff.mp hsingle |>.resolve_right (by simp)).1

theorem minimal_decimal (n : Nat) : Minimal (decimal n) := by
  induction n using Nat.strongRecOn with
  | _ n ih =>
      rcases Nat.lt_or_ge n 10 with hlt | hge
      · rw [decimal_of_lt hlt]
        intro h
        rw [Option.some.inj h]
      · -- the digits in front are those of a number that is not zero
        have hpos : 0 < n / 10 := by omega
        have hn : decimal n = decimal (n / 10) ++ [Nat.digitChar (n % 10)] := by
          rw [← decimal_concat hpos (Nat.mod_lt n (by decide)), Nat.div_add_mod]
        intro h
        rw [hn, List.head?_append, List.head?_eq_some_head (decimal_ne_nil (n / 10)),
          Option.some_or, ← List.head?_eq_some_head] at h
        have hvalue := congrArg ofDecimal (ih (n / 10) (by omega) h)
        rw [ofDecimal_decimal] at hvalue
        exact absurd hvalue hpos.ne'

/-- Digits with no zero in front of them are the text of the number they write. -/
theorem decimal_ofDecimal {cs : List Char} (hne : cs ≠ [])
    (hdigit : ∀ c ∈ cs, c.isDigit = true) (hmin : Minimal cs) : decimal (ofDecimal cs) = cs := by
  induction cs using List.reverseRecOn with
  | nil => exact absurd rfl hne
  | append_singleton cs c ih =>
      obtain ⟨hcs, hc⟩ := List.forall_mem_append.mp hdigit
      obtain ⟨hlt, hchar⟩ := digitValue_of_isDigit (hc c List.mem_cons_self)
      by_cases hnil : cs = []
      · rw [hnil, ofDecimal_concat, ofDecimal, List.foldl_nil, Nat.mul_zero, Nat.zero_add,
          decimal_of_lt hlt, hchar, List.nil_append]
      · have hzero : cs.head? ≠ some '0' := hmin.head?_ne hnil
        have hread : decimal (ofDecimal cs) = cs := ih hnil hcs fun h => absurd h hzero
        have hpos : 0 < ofDecimal cs := by
          refine Nat.pos_of_ne_zero fun h => hzero ?_
          rw [← hread, h]
          rfl
        rw [ofDecimal_concat, decimal_concat hpos hlt, hread, hchar]

/-- A number that fits the width is padded to exactly that width. -/
theorem length_decimalPadded {width n : Nat} (hw : 0 < width) (hn : n < 10 ^ width) :
    (decimalPadded width n).length = width := by
  have hle : (decimal n).length ≤ width := (Nat.length_toDigits_le_iff (by decide) hw).mpr hn
  simp only [decimalPadded, List.length_append, List.length_replicate]
  omega

/-! ## Base sixteen -/

theorem toNat_lt_of_isHex {c : Char} (h : isHex c = true) : c.toNat < 128 := by
  rw [isHex, hexValue?] at h
  split at h
  case isTrue hc => exact Nat.lt_of_le_of_lt hc.2 (by decide)
  split at h
  case isTrue hc => exact Nat.lt_of_le_of_lt hc.2 (by decide)
  split at h
  case isTrue hc => exact Nat.lt_of_le_of_lt hc.2 (by decide)
  exact absurd h (by decide)

/-- A digit of base sixteen in lower case. -/
def IsLowerHex (c : Char) : Prop := c.isDigit = true ∨ ('a' ≤ c ∧ c ≤ 'f')

instance (c : Char) : Decidable (IsLowerHex c) := inferInstanceAs (Decidable (_ ∨ _))

theorem IsLowerHex.toNat_lt {c : Char} (h : IsLowerHex c) : c.toNat < 128 := by
  rcases h with h | h
  · exact toNat_lt_of_isDigit h
  · exact Nat.lt_of_le_of_lt h.2 (by decide)

theorem IsLowerHex.isHex {c : Char} (h : IsLowerHex c) : isHex c = true :=
  of_toNat_lt (p := fun c => IsLowerHex c → Text.isHex c = true) (by decide) h.toNat_lt h

theorem IsLowerHex.toLower {c : Char} (h : IsLowerHex c) : c.toLower = c :=
  of_toNat_lt (p := fun c => IsLowerHex c → c.toLower = c) (by decide) h.toNat_lt h

theorem isLowerHex_of_mem_hexFixed (width : Nat) :
    ∀ {n : Nat} {c : Char}, c ∈ hexFixed width n → IsLowerHex c := by
  have hdigit : ∀ n < 16, IsLowerHex (Nat.digitChar n) := by decide
  induction width with
  | zero => intro n c h; exact absurd h List.not_mem_nil
  | succ width ih =>
      intro n c h
      rcases List.mem_append.mp h with h | h
      · exact ih h
      · rw [List.mem_singleton.mp h]
        exact hdigit _ (Nat.mod_lt n (by decide))

theorem hexValue?_digitChar {n : Nat} (h : n < 16) : hexValue? (Nat.digitChar n) = some n := by
  have hall : ∀ n < 16, hexValue? (Nat.digitChar n) = some n := by decide
  exact hall n h

theorem digitChar_lt_digitChar {m n : Nat} (h : m < n) (hn : n < 16) :
    Nat.digitChar m < Nat.digitChar n := by
  have hall : ∀ n < 16, ∀ m < n, Nat.digitChar m < Nat.digitChar n := by decide
  exact hall n hn m h

theorem ofHex?_concat (cs : List Char) (c : Char) :
    ofHex? (cs ++ [c]) = (ofHex? cs).bind fun n => (hexValue? c).map (16 * n + ·) := by
  simp only [ofHex?, List.foldlM_append, List.foldlM_cons, List.foldlM_nil, bind_pure]
  rfl

/-- The digits of a width write the number modulo the numbers of that width. -/
theorem ofHex?_hexFixed (width : Nat) :
    ∀ n : Nat, ofHex? (hexFixed width n) = some (n % 16 ^ width) := by
  induction width with
  | zero => intro n; simp [hexFixed, ofHex?, Nat.mod_one]
  | succ width ih =>
      intro n
      have hsplit : 16 * (n / 16 % 16 ^ width) + n % 16 = n % 16 ^ (width + 1) := by
        rw [Nat.pow_succ', Nat.mod_mul, Nat.add_comm]
      rw [hexFixed, ofHex?_concat, ih (n / 16), hexValue?_digitChar (Nat.mod_lt n (by decide)),
        Option.bind_some, Option.map_some, hsplit]

/-- Digits are read, and nothing else is. -/
theorem isSome_ofHex?_iff {cs : List Char} :
    (ofHex? cs).isSome = true ↔ ∀ c ∈ cs, isHex c = true := by
  induction cs using List.reverseRecOn with
  | nil => simp [ofHex?]
  | append_singleton cs c ih =>
      rw [ofHex?_concat, List.forall_mem_append, ← ih]
      cases ofHex? cs <;> simp [isHex]

theorem digitChar_of_hexValue? {c : Char} {v : Nat} (h : hexValue? c = some v) :
    v < 16 ∧ Nat.digitChar v = c.toLower := by
  have hhex : isHex c = true := by rw [isHex, h]; rfl
  exact of_toNat_lt (p := fun c => ∀ v ∈ hexValue? c, v < 16 ∧ Nat.digitChar v = c.toLower)
    (by decide) (toNat_lt_of_isHex hhex) v h

/-- The last digit that was read counts behind the number of those in front of it. -/
theorem exists_of_ofHex?_concat {cs : List Char} {c : Char} {n : Nat}
    (h : ofHex? (cs ++ [c]) = some n) :
    ∃ m v, ofHex? cs = some m ∧ n = 16 * m + v ∧ v < 16 ∧ Nat.digitChar v = c.toLower := by
  rw [ofHex?_concat] at h
  obtain ⟨m, hm, h⟩ := Option.bind_eq_some_iff.mp h
  obtain ⟨v, hv, hn⟩ := Option.map_eq_some_iff.mp h
  exact ⟨m, v, hm, hn.symm, digitChar_of_hexValue? hv⟩

theorem lt_of_ofHex? {cs : List Char} : ∀ {n : Nat}, ofHex? cs = some n → n < 16 ^ cs.length := by
  induction cs using List.reverseRecOn with
  | nil => intro n h; cases h; decide
  | append_singleton cs c ih =>
      intro n h
      obtain ⟨m, v, hm, rfl, hlt, -⟩ := exists_of_ofHex?_concat h
      have hfront : m < 16 ^ cs.length := ih hm
      rw [List.length_append, List.length_singleton, Nat.pow_succ]
      omega

/-- Digits that were read are written again in lower case. -/
theorem hexFixed_of_ofHex? {cs : List Char} :
    ∀ {n : Nat}, ofHex? cs = some n → hexFixed cs.length n = cs.map Char.toLower := by
  induction cs using List.reverseRecOn with
  | nil => intro n _; rfl
  | append_singleton cs c ih =>
      intro n h
      obtain ⟨m, v, hm, rfl, hlt, hchar⟩ := exists_of_ofHex?_concat h
      have hdiv : (16 * m + v) / 16 = m := by omega
      have hmod : (16 * m + v) % 16 = v := by omega
      rw [List.length_append, List.length_singleton, hexFixed, hdiv, hmod, ih hm, hchar,
        List.map_append, List.map_singleton]

theorem append_lt_append_of_lt {cs ds cs' ds' : List Char} (hl : cs.length = ds.length)
    (h : cs < ds) : cs ++ cs' < ds ++ ds' := by
  induction cs generalizing ds with
  | nil =>
      rw [List.eq_nil_of_length_eq_zero hl.symm] at h
      exact absurd h (List.not_lt_nil [])
  | cons c cs ih =>
      cases ds with
      | nil => exact absurd h (List.not_lt_nil _)
      | cons d ds =>
          rw [List.cons_append, List.cons_append, List.cons_lt_cons_iff]
          rcases List.cons_lt_cons_iff.mp h with hcd | ⟨hcd, ht⟩
          · exact Or.inl hcd
          · exact Or.inr ⟨hcd, ih (Nat.succ.inj hl) ht⟩

/-- Smaller numbers come first: the higher digits decide, and the last one if they agree. -/
theorem hexFixed_lt_hexFixed (width : Nat) :
    ∀ {m n : Nat}, m < n → n < 16 ^ width → hexFixed width m < hexFixed width n := by
  induction width with
  | zero => intro m n hmn hn; omega
  | succ width ih =>
      intro m n hmn hn
      have hn' : n / 16 < 16 ^ width := by
        rw [Nat.pow_succ'] at hn
        exact Nat.div_lt_of_lt_mul hn
      rcases Nat.lt_or_ge (m / 16) (n / 16) with hlt | hge
      · refine append_lt_append_of_lt ?_ (ih hlt hn')
        rw [length_hexFixed, length_hexFixed]
      · have heq : m / 16 = n / 16 := by omega
        rw [hexFixed, hexFixed, heq]
        refine List.append_left_lt (List.cons_lt_cons_iff.mpr (Or.inl ?_))
        exact digitChar_lt_digitChar (by omega) (Nat.mod_lt n (by decide))

theorem hexFixed_lt_hexFixed_iff {width m n : Nat} (hm : m < 16 ^ width) (hn : n < 16 ^ width) :
    hexFixed width m < hexFixed width n ↔ m < n := by
  constructor
  · intro h
    rcases Nat.lt_trichotomy m n with hlt | rfl | hgt
    · exact hlt
    · exact absurd h (List.lt_irrefl _)
    · exact absurd h (List.lt_asymm (hexFixed_lt_hexFixed width hgt hm))
  · exact fun h => hexFixed_lt_hexFixed width h hn

end Gamebook.Text
