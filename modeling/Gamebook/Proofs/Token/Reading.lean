/-
# What a text is read as

The reader cuts a text into characters and looks at those.  What it does can be said of
the bytes alone: whether there are eight in front of a character boundary, whether those
are digits of base sixteen, and whether decimal digits alone stand behind them, of a
number that fits 64 bits.  A text is refused for the first of three rules it breaks
(`Breaks`), and any other is read as the numbers its bytes write (`Verdict`); a tail with
anything else in it, a sign or a digit of another script, stands for nothing held.

Bytes and characters meet in `Cut`: ASCII digits are one byte each, so the eight bytes of
an identifier are eight characters, and a longer character is never taken for digits.

A token that was read is printed with the same digits in lower case and without zeros in
front, and so the text comes back exactly if it is `Canonical`.

Main statement: `ofText_describes`.
-/
import Gamebook.Proofs.Page.Bytes
import Gamebook.Proofs.Token
import Mathlib.Data.Nat.Digits.Defs

namespace Gamebook.Token

open Page (bytesOf utf8)

/-! ## Digits in bytes -/

/-- An ASCII decimal digit. -/
def IsDecimal (b : UInt8) : Prop := 0x30 ≤ b ∧ b ≤ 0x39

/-- An ASCII digit of base sixteen in either letter case. -/
def IsHexadecimal (b : UInt8) : Prop :=
  IsDecimal b ∨ (0x41 ≤ b ∧ b ≤ 0x46) ∨ (0x61 ≤ b ∧ b ≤ 0x66)

instance (b : UInt8) : Decidable (IsDecimal b) :=
  inferInstanceAs (Decidable (_ ∧ _))

instance (b : UInt8) : Decidable (IsHexadecimal b) :=
  inferInstanceAs (Decidable (_ ∨ _))

theorem IsDecimal.toNat_lt {b : UInt8} (h : IsDecimal b) : b.toNat < 128 :=
  Nat.lt_of_le_of_lt (UInt8.le_iff_toNat_le.mp h.2) (by decide)

theorem IsHexadecimal.toNat_lt {b : UInt8} (h : IsHexadecimal b) : b.toNat < 128 := by
  rcases h with h | h | h
  · exact h.toNat_lt
  · exact Nat.lt_of_le_of_lt (UInt8.le_iff_toNat_le.mp h.2) (by decide)
  · exact Nat.lt_of_le_of_lt (UInt8.le_iff_toNat_le.mp h.2) (by decide)

/-- What a digit stands for. -/
def digitOf (b : UInt8) : Nat :=
  if b ≤ 0x39 then b.toNat - 0x30
  else if b ≤ 0x46 then b.toNat - 0x41 + 10
  else b.toNat - 0x61 + 10

/-- The number that digits write, the highest in front. -/
def numberOf (base : Nat) (bytes : List UInt8) : Nat :=
  Nat.ofDigits base (bytes.map digitOf).reverse

theorem numberOf_concat (base : Nat) (bytes : List UInt8) (b : UInt8) :
    numberOf base (bytes ++ [b]) = base * numberOf base bytes + digitOf b := by
  rw [numberOf, List.map_append, List.reverse_append, List.map_singleton, List.reverse_singleton,
    List.singleton_append, Nat.ofDigits_cons, Nat.add_comm]
  rfl

theorem forall_isDecimal_iff {cs : List Char} :
    (∀ b ∈ utf8 cs, IsDecimal b) ↔ ∀ c ∈ cs, c.isDigit = true :=
  Page.forall_mem_utf8_iff (by decide) (fun _ => Text.toNat_lt_of_isDigit)
    fun _ => IsDecimal.toNat_lt

theorem forall_isHexadecimal_iff {cs : List Char} :
    (∀ b ∈ utf8 cs, IsHexadecimal b) ↔ ∀ c ∈ cs, Text.isHex c = true :=
  Page.forall_mem_utf8_iff (by decide) (fun _ => Text.toNat_lt_of_isHex)
    fun _ => IsHexadecimal.toNat_lt

/-- A digit of base sixteen is read as what its byte stands for. -/
theorem hexValue?_eq_digitOf {c : Char} (h : Text.isHex c = true) :
    Text.hexValue? c = some (digitOf (UInt8.ofNat c.toNat)) :=
  Text.of_toNat_lt
    (p := fun c => Text.isHex c = true → Text.hexValue? c = some (digitOf (UInt8.ofNat c.toNat)))
    (by decide) (Text.toNat_lt_of_isHex h) h

theorem digitValue_eq_digitOf {c : Char} (h : c.isDigit = true) :
    Text.digitValue c = digitOf (UInt8.ofNat c.toNat) :=
  Text.of_toNat_lt
    (p := fun c => c.isDigit = true → Text.digitValue c = digitOf (UInt8.ofNat c.toNat))
    (by decide) (Text.toNat_lt_of_isDigit h) h

/-- The number that decimal digits write is that of their bytes. -/
theorem ofDecimal_eq_numberOf {cs : List Char} (h : ∀ c ∈ cs, c.isDigit = true) :
    Text.ofDecimal cs = numberOf 10 (utf8 cs) := by
  induction cs using List.reverseRecOn with
  | nil => rfl
  | append_singleton cs c ih =>
      obtain ⟨hcs, hc⟩ := List.forall_mem_append.mp h
      have hc : c.isDigit = true := hc c List.mem_cons_self
      rw [Text.ofDecimal_concat, ih hcs, digitValue_eq_digitOf hc,
        Page.utf8_concat (Text.toNat_lt_of_isDigit hc), numberOf_concat]

/-- The number that digits of base sixteen write is that of their bytes. -/
theorem ofHex?_eq_numberOf {cs : List Char} (h : ∀ c ∈ cs, Text.isHex c = true) :
    Text.ofHex? cs = some (numberOf 16 (utf8 cs)) := by
  induction cs using List.reverseRecOn with
  | nil => rfl
  | append_singleton cs c ih =>
      obtain ⟨hcs, hc⟩ := List.forall_mem_append.mp h
      have hc : Text.isHex c = true := hc c List.mem_cons_self
      rw [Text.ofHex?_concat, ih hcs, hexValue?_eq_digitOf hc,
        Page.utf8_concat (Text.toNat_lt_of_isHex hc), numberOf_concat]
      rfl

/-! ## The rules a text can break -/

/-- Fewer than eight bytes, or a cut behind the eighth would split a character. -/
def Short (s : String) : Prop := (bytesOf s).length < 8 ∨ ¬ String.Pos.Raw.IsValid s ⟨8⟩

/-- One of the first eight bytes is no digit of base sixteen. -/
def Misspelt (s : String) : Prop := ∃ b ∈ (bytesOf s).take 8, ¬ IsHexadecimal b

/-- Behind the eighth byte stand one or more decimal digits and nothing else. -/
def Numbered (s : String) : Prop :=
  (bytesOf s).drop 8 ≠ [] ∧ ∀ b ∈ (bytesOf s).drop 8, IsDecimal b

/-- The digits behind the eighth byte write a number of more than 64 bits. -/
def Oversized (s : String) : Prop :=
  Numbered s ∧ 2 ^ 64 ≤ numberOf 10 ((bytesOf s).drop 8)

/-- The first rule that a text breaks. -/
def Breaks (s : String) : TokenFault → Prop
  | .short => Short s
  | .notHex => ¬ Short s ∧ Misspelt s
  | .tooLarge => ¬ Short s ∧ ¬ Misspelt s ∧ Oversized s

theorem Breaks.unique {s : String} {fault fault' : TokenFault} (h : Breaks s fault)
    (h' : Breaks s fault') : fault = fault' := by
  cases fault <;> cases fault' <;> simp_all [Breaks]

theorem not_breaks {s : String} (hshort : ¬ Short s) (hmis : ¬ Misspelt s)
    (hsize : ¬ Oversized s) (fault : TokenFault) : ¬ Breaks s fault := by
  cases fault <;> simp [Breaks, hshort, hmis, hsize]

/-- What reading a text has to give: the fault of a rule that it breaks, or the numbers that its
two parts write, and no holdings where the second part writes none. -/
inductive Verdict (s : String) : Except TokenFault Token → Prop
  | error {fault : TokenFault} : Breaks s fault → Verdict s (.error fault)
  | ok {t : Token} : (∀ fault, ¬ Breaks s fault) →
      t.cell.value.toNat = numberOf 16 ((bytesOf s).take 8) →
      (Numbered s → t.held.bits.toNat = numberOf 10 ((bytesOf s).drop 8)) →
      (¬ Numbered s → t.held = .empty) → Verdict s (.ok t)

/-! ## The cut behind the identifier -/

theorem length_utf8 (cs : List Char) : (utf8 cs).length = (cs.map Char.utf8Size).sum := by
  simp [utf8, List.length_flatMap]

/-- Characters can be cut where their text can. -/
theorem isValid_iff_exists_splitBytes? {s : String} {n : Nat} :
    String.Pos.Raw.IsValid s ⟨n⟩ ↔ ∃ parts, splitBytes? n s.toList = some parts := by
  rw [String.Pos.Raw.isValid_iff_exists_append]
  have hsize : ∀ s' : String, s'.rawEndPos = ⟨(s'.toList.map Char.utf8Size).sum⟩ := by
    intro s'
    rw [← length_utf8, ← Page.bytesOf_eq_utf8, Page.length_bytesOf]
    rfl
  constructor
  · rintro ⟨s₁, s₂, rfl, hpos⟩
    obtain rfl := congrArg String.Pos.Raw.byteIdx (hpos.trans (hsize s₁))
    exact ⟨_, String.toList_append ▸ splitBytes?_append s₁.toList s₂.toList⟩
  · rintro ⟨⟨front, back⟩, hsplit⟩
    obtain ⟨happend, rfl⟩ := eq_append_of_splitBytes? hsplit
    refine ⟨String.ofList front, String.ofList back, ?_, ?_⟩
    · rw [← String.ofList_append, ← happend, String.ofList_toList]
    · rw [hsize, String.toList_ofList]

/-- A text in the two parts that are read, which are its first eight bytes and the others. -/
structure Cut (s : String) (front back : List Char) : Prop where
  split : splitBytes? 8 s.toList = some (front, back)
  take : (bytesOf s).take 8 = utf8 front
  drop : (bytesOf s).drop 8 = utf8 back

theorem cut_of_splitBytes? {s : String} {front back : List Char}
    (h : splitBytes? 8 s.toList = some (front, back)) : Cut s front back := by
  obtain ⟨happend, hsize⟩ := eq_append_of_splitBytes? h
  have hlength : (utf8 front).length = 8 := (length_utf8 front).trans hsize
  have hbytes : bytesOf s = utf8 front ++ utf8 back := by
    rw [Page.bytesOf_eq_utf8, happend, Page.utf8_append]
  refine ⟨h, ?_, ?_⟩
  · rw [hbytes, ← hlength, List.take_left]
  · rw [hbytes, ← hlength, List.drop_left]

theorem exists_cut {s : String} (h : ¬ Short s) : ∃ front back, Cut s front back := by
  have hvalid : String.Pos.Raw.IsValid s ⟨8⟩ := not_not.mp fun hinvalid => h (Or.inr hinvalid)
  obtain ⟨parts, hsplit⟩ := isValid_iff_exists_splitBytes?.mp hvalid
  exact ⟨parts.1, parts.2, cut_of_splitBytes? hsplit⟩

theorem Cut.not_short {s : String} {front back : List Char} (cut : Cut s front back) :
    ¬ Short s := by
  rintro (hlt | hinvalid)
  · have hlength : ((bytesOf s).take 8).length = 8 := by
      rw [cut.take, length_utf8, (eq_append_of_splitBytes? cut.split).2]
    rw [List.length_take] at hlength
    omega
  · exact hinvalid (isValid_iff_exists_splitBytes?.mpr ⟨_, cut.split⟩)

theorem splitBytes?_of_short {s : String} (h : Short s) : splitBytes? 8 s.toList = none :=
  Option.eq_none_iff_forall_ne_some.mpr fun _ hsplit => (cut_of_splitBytes? hsplit).not_short h

/-! ## The two parts -/

section Parts

variable {s : String} {front back : List Char}

theorem Cut.not_misspelt_iff (cut : Cut s front back) :
    ¬ Misspelt s ↔ ∀ c ∈ front, Text.isHex c = true := by
  rw [Misspelt, cut.take, ← forall_isHexadecimal_iff]
  push Not
  rfl

/-- An identifier is read from eight bytes that are digits, whose number it then has. -/
theorem Cut.ofDigits?_of_not_misspelt (cut : Cut s front back) (h : ¬ Misspelt s) :
    ∃ cell, CellId.ofDigits? front = some cell ∧
      cell.value.toNat = numberOf 16 ((bytesOf s).take 8) := by
  have hhex : ∀ c ∈ front, Text.isHex c = true := cut.not_misspelt_iff.mp h
  have hlength : front.length = 8 := by
    rw [← sum_utf8Size_of_isHex hhex]
    exact (eq_append_of_splitBytes? cut.split).2
  have hread := ofHex?_eq_numberOf hhex
  have hlt : numberOf 16 (utf8 front) < UInt32.size := by
    have h := Text.lt_of_ofHex? hread
    rwa [hlength] at h
  refine ⟨⟨UInt32.ofNat (numberOf 16 (utf8 front))⟩, ?_, ?_⟩
  · rw [CellId.ofDigits?, if_pos hlength, hread]
    rfl
  · rw [cut.take]
    exact UInt32.toNat_ofNat_of_lt hlt

theorem Cut.ofDigits?_of_misspelt (cut : Cut s front back) (h : Misspelt s) :
    CellId.ofDigits? front = none := by
  have hread : Text.ofHex? front = none := by
    rw [← Option.not_isSome_iff_eq_none, Text.isSome_ofHex?_iff, ← cut.not_misspelt_iff]
    exact not_not_intro h
  rw [CellId.ofDigits?, hread]
  exact ite_self none

theorem Cut.isNumeral_iff (cut : Cut s front back) : Text.isNumeral back = true ↔ Numbered s := by
  rw [Numbered, cut.drop, forall_isDecimal_iff, Ne, Page.utf8_eq_nil_iff]
  simp [Text.isNumeral]

theorem Cut.ofDecimal_of_numbered (cut : Cut s front back) (h : Numbered s) :
    Text.ofDecimal back = numberOf 10 ((bytesOf s).drop 8) := by
  have hdigit : ∀ b ∈ utf8 back, IsDecimal b := cut.drop ▸ h.2
  rw [cut.drop, ofDecimal_eq_numberOf (forall_isDecimal_iff.mp hdigit)]

/-- A state is read unless its number is too large. -/
theorem Cut.readState_of_not_oversized (cut : Cut s front back) (h : ¬ Oversized s) :
    ∃ held, readState back = .ok held ∧
      (Numbered s → held.bits.toNat = numberOf 10 ((bytesOf s).drop 8)) ∧
      (¬ Numbered s → held = .empty) := by
  by_cases hnum : Numbered s
  · have hlt : numberOf 10 ((bytesOf s).drop 8) < UInt64.size :=
      Nat.lt_of_not_le fun hle => h ⟨hnum, hle⟩
    refine ⟨⟨UInt64.ofNat (numberOf 10 ((bytesOf s).drop 8))⟩, ?_, fun _ => ?_, absurd hnum⟩
    · simp only [readState, if_pos (cut.isNumeral_iff.mpr hnum), cut.ofDecimal_of_numbered hnum,
        if_pos hlt]
    · exact UInt64.toNat_ofNat_of_lt hlt
  · refine ⟨.empty, ?_, fun h => absurd h hnum, fun _ => rfl⟩
    rw [readState, if_neg (mt cut.isNumeral_iff.mp hnum)]

theorem Cut.readState_of_oversized (cut : Cut s front back) (h : Oversized s) :
    readState back = .error .tooLarge := by
  have hge : ¬ numberOf 10 ((bytesOf s).drop 8) < UInt64.size := Nat.not_lt.mpr h.2
  simp only [readState, if_pos (cut.isNumeral_iff.mpr h.1), cut.ofDecimal_of_numbered h.1,
    if_neg hge]

end Parts

/-! ## The verdict -/

theorem verdict_read (s : String) : Verdict s (read s.toList) := by
  by_cases hshort : Short s
  · rw [read, splitBytes?_of_short hshort]
    exact .error hshort
  obtain ⟨front, back, cut⟩ := exists_cut hshort
  by_cases hmis : Misspelt s
  · rw [read, cut.split]
    simp only [cut.ofDigits?_of_misspelt hmis]
    exact .error ⟨hshort, hmis⟩
  obtain ⟨cell, hcell, hvalue⟩ := cut.ofDigits?_of_not_misspelt hmis
  have hread : read s.toList = (readState back).map fun held => ⟨cell, held⟩ := by
    rw [read, cut.split]
    simp only [hcell]
  rw [hread]
  by_cases hsize : Oversized s
  · rw [cut.readState_of_oversized hsize]
    exact .error ⟨hshort, hmis, hsize⟩
  · obtain ⟨held, hheld, hnumber, hempty⟩ := cut.readState_of_not_oversized hsize
    rw [hheld]
    exact .ok (not_breaks hshort hmis hsize) hvalue hnumber hempty

/-- A text is refused for the first rule that it breaks. -/
theorem read_eq_error_iff {s : String} {fault : TokenFault} :
    read s.toList = .error fault ↔ Breaks s fault := by
  have v := verdict_read s
  generalize read s.toList = result at v ⊢
  cases v with
  | error hbreaks =>
      rw [Except.error.injEq]
      exact ⟨fun h => h ▸ hbreaks, hbreaks.unique⟩
  | ok hkept => exact iff_of_false nofun (hkept fault)

theorem ofText_eq_ok_iff {s : String} {t : Token} : ofText s = .ok t ↔ read s.toList = .ok t := by
  rw [ofText]
  cases read s.toList <;> simp [Except.mapError]

theorem ofText_eq_error_iff {s : String} {fault : TokenFault} :
    ofText s = .error (.invalidToken s fault) ↔ read s.toList = .error fault := by
  rw [ofText]
  cases read s.toList <;> simp [Except.mapError]

/-! ## The text printed again -/

/-- Eight digits of base sixteen in lower case and a number in decimal, with no zero in front of
other digits. -/
def Canonical (s : String) : Prop :=
  ∃ front back, s.toList = front ++ back ∧ front.length = 8 ∧ (∀ c ∈ front, Text.IsLowerHex c) ∧
    back ≠ [] ∧ (∀ c ∈ back, c.isDigit = true) ∧ Text.Minimal back

theorem canonical_text (t : Token) : Canonical t.text :=
  ⟨t.cell.digits, Text.decimal t.held.bits.toNat, toList_text t, t.cell.length_digits,
    fun _ => Text.isLowerHex_of_mem_hexFixed 8, Text.decimal_ne_nil _,
    fun _ => Text.isDigit_of_mem_decimal, Text.minimal_decimal _⟩

theorem parts_of_read {cs front back : List Char} {t : Token}
    (hsplit : splitBytes? 8 cs = some (front, back)) (h : read cs = .ok t) :
    CellId.ofDigits? front = some t.cell ∧ readState back = .ok t.held := by
  rw [read, hsplit] at h
  cases hcell : CellId.ofDigits? front with
  | none => simp [hcell] at h
  | some cell =>
      cases hheld : readState back with
      | error fault => simp [hcell, hheld, Except.map] at h
      | ok held =>
          simp only [hcell, hheld, Except.map, Except.ok.injEq] at h
          rw [← h]
          exact ⟨rfl, rfl⟩

theorem toNat_of_readState {cs : List Char} {held : Holdings} (hnum : Text.isNumeral cs = true)
    (h : readState cs = .ok held) : held.bits.toNat = Text.ofDecimal cs := by
  simp only [readState, if_pos hnum] at h
  split at h
  case isTrue hlt =>
    cases h
    exact UInt64.toNat_ofNat_of_lt hlt
  case isFalse => cases h

/-- A canonical text that is read is printed again as it stands. -/
theorem text_of_canonical {s : String} {t : Token} (hread : read s.toList = .ok t)
    (hs : Canonical s) : t.text = s := by
  obtain ⟨front, back, happend, hlength, hlower, hne, hdigit, hmin⟩ := hs
  have hsplit : splitBytes? 8 s.toList = some (front, back) := by
    rw [happend, ← hlength, ← sum_utf8Size_of_isHex fun c hc => (hlower c hc).isHex,
      splitBytes?_append]
  obtain ⟨hcell, hheld⟩ := parts_of_read hsplit hread
  have hfront : t.cell.digits = front := by
    rw [CellId.digits_of_ofDigits? hcell, List.map_congr_left fun c hc => (hlower c hc).toLower,
      List.map_id']
  have hnum : Text.isNumeral back = true := by simpa [Text.isNumeral, hne] using hdigit
  have hback : Text.decimal t.held.bits.toNat = back := by
    rw [toNat_of_readState hnum hheld, Text.decimal_ofDecimal hne hdigit hmin]
  rw [← String.toList_inj, toList_text, hfront, hback, happend]

/-! ## Tokens as a code -/

/-- Reading fails for a reason. -/
def Refused (s reason : String) : Prop :=
  ∃ fault, ofText s = .error (.invalidToken s fault) ∧ fault.message = reason

theorem refused_iff {s : String} {fault : TokenFault} :
    Refused s fault.message ↔ Breaks s fault := by
  have hinj : ∀ f g : TokenFault, f.message = g.message → f = g := by
    intro f g h
    cases f <;> cases g <;> simp_all [TokenFault.message]
  rw [← read_eq_error_iff]
  constructor
  · rintro ⟨fault', hread, hmessage⟩
    rw [← hinj _ _ hmessage]
    exact ofText_eq_error_iff.mp hread
  · intro hread
    exact ⟨fault, ofText_eq_error_iff.mpr hread, rfl⟩

/-- Tokens are read back from their texts, and every text is read or refused by its bytes: it is
refused for the first rule that it breaks, and otherwise is the token of the numbers that it writes,
whose own text it is only if it is canonical. -/
theorem ofText_describes :
    (∀ t : Token, ofText t.text = .ok t) ∧
      ∀ s : String,
        (Refused s "shorter than a cell identifier" ↔ Short s) ∧
        (Refused s "cell identifier is not hexadecimal" ↔ ¬ Short s ∧ Misspelt s) ∧
        (Refused s "inventory state does not fit in 64 bits" ↔
          ¬ Short s ∧ ¬ Misspelt s ∧ Oversized s) ∧
        (¬ Short s → ¬ Misspelt s → ¬ Oversized s → ∃ t, ofText s = .ok t ∧
          t.cell.value.toNat = numberOf 16 ((bytesOf s).take 8) ∧
          (Numbered s → t.held.bits.toNat = numberOf 10 ((bytesOf s).drop 8)) ∧
          (¬ Numbered s → t.held.bits.toNat = 0)) ∧
        ∀ t, ofText s = .ok t → (t.text = s ↔ Canonical s) := by
  refine ⟨ofText_text, fun s =>
    ⟨@refused_iff s .short, @refused_iff s .notHex, @refused_iff s .tooLarge, ?_, ?_⟩⟩
  · intro hshort hmis hsize
    have v := verdict_read s
    cases hread : read s.toList with
    | error fault =>
        exact absurd (read_eq_error_iff.mp hread) (not_breaks hshort hmis hsize fault)
    | ok t =>
        rw [hread] at v
        cases v with
        | ok _ hcell hnumber hempty =>
            refine ⟨t, ofText_eq_ok_iff.mpr hread, hcell, hnumber, fun h => ?_⟩
            rw [hempty h]
            rfl
  · intro t hread
    constructor
    · rintro rfl
      exact canonical_text t
    · exact text_of_canonical (ofText_eq_ok_iff.mp hread)

/-- Letters in upper case and zeros in front are read, and printed otherwise. -/
theorem ofText_describes_uppercase :
    ¬ Short "B0C485D7007" ∧ ¬ Misspelt "B0C485D7007" ∧ ¬ Oversized "B0C485D7007" ∧
      Numbered "B0C485D7007" ∧
      ∃ t, ofText "B0C485D7007" = .ok t ∧ t.cell.value.toNat = 0xb0c485d7 ∧
        t.held.bits.toNat = 7 ∧ t.text = "b0c485d77" ∧ ¬ Canonical "B0C485D7007" := by
  have hfront : (bytesOf "B0C485D7007").take 8 =
      [0x42, 0x30, 0x43, 0x34, 0x38, 0x35, 0x44, 0x37] := by decide +kernel
  have hback : (bytesOf "B0C485D7007").drop 8 = [0x30, 0x30, 0x37] := by decide +kernel
  have hshort : ¬ Short "B0C485D7007" := by
    rintro (hlt | hinvalid)
    · exact absurd hlt (by decide +kernel)
    · exact hinvalid (by decide)
  have hmis : ¬ Misspelt "B0C485D7007" := by
    rw [Misspelt, hfront]
    decide
  have hnum : Numbered "B0C485D7007" := by
    rw [Numbered, hback]
    decide +kernel
  have hsize : ¬ Oversized "B0C485D7007" := by
    rintro ⟨-, hle⟩
    rw [hback] at hle
    exact absurd hle (by decide)
  obtain ⟨t, hread, hcell, hnumber, -⟩ :=
    (ofText_describes.2 "B0C485D7007").2.2.2.1 hshort hmis hsize
  rw [hfront] at hcell
  have hheld := hnumber hnum
  rw [hback] at hheld
  have htext : t.text = "b0c485d77" := by
    have hvalue : ofText "B0C485D7007" = .ok ⟨⟨0xb0c485d7⟩, ⟨7⟩⟩ := by decide
    cases hread.symm.trans hvalue
    decide
  refine ⟨hshort, hmis, hsize, hnum, t, hread, hcell, hheld, htext, ?_⟩
  rw [← (ofText_describes.2 "B0C485D7007").2.2.2.2 t hread, htext]
  decide

end Gamebook.Token
