/-
# The written form of timestamps

The reader takes far more than the writer writes: blanks anywhere, short numbers,
offsets.  None of this gets in the way of reading back what was written, because
a piece of the written form never begins with a blank and every run of digits
either has the full width or stands before a character that is no digit.

Each piece is read back with anything behind it, and the pieces are then put
together in their order.

Main statement: `ofText?_text`.
-/
import Gamebook.Proofs.Text.Numeral
import Gamebook.Timestamp.Reading

namespace Gamebook.Timestamp

open Text

/-! ## Runs of digits -/

theorem isBlank_of_isDigit {c : Char} (h : c.isDigit = true) : isBlank c = false := by
  have hrange : 48 ≤ c.toNat ∧ c.toNat ≤ 57 := by
    simpa [Char.isDigit, Char.le_def, UInt32.le_iff_toNat_le] using h
  simp only [isBlank, Bool.or_eq_false_iff, Bool.and_eq_false_iff, decide_eq_false_iff_not,
    beq_eq_false_iff_ne]
  omega

theorem skipBlanks_cons {c : Char} (h : isBlank c = false) (rest : List Char) :
    skipBlanks (c :: rest) = c :: rest := by
  simp [skipBlanks, h]

/-- What stands behind a run of digits does not go on with a digit. -/
def Stops (rest : List Char) : Prop := ∀ c ∈ rest.head?, c.isDigit = false

theorem stops_cons {c : Char} (h : c.isDigit = false) (rest : List Char) : Stops (c :: rest) := by
  intro d hd
  rw [← Option.mem_some_iff.mp hd]
  exact h

theorem takeWhile_isDigit_take {rest : List Char} (h : Stops rest) (n : Nat) :
    (rest.take n).takeWhile Char.isDigit = [] := by
  cases rest with
  | nil => rw [List.take_nil]; rfl
  | cons c rest =>
      cases n with
      | zero => rfl
      | succ n => simp [h c rfl]

/-- A run of digits is read up to its end if it has the full width or no digit follows. -/
theorem readDigits?_append {most : Nat} {ds rest : List Char} (hne : ds ≠ [])
    (hd : ∀ c ∈ ds, c.isDigit = true) (hlen : ds.length ≤ most)
    (hend : ds.length = most ∨ Stops rest) : readDigits? most (ds ++ rest) = some (ds, rest) := by
  have hbehind : (rest.take (most - ds.length)).takeWhile Char.isDigit = [] := by
    rcases hend with hfull | hstop
    · rw [hfull, Nat.sub_self, List.take_zero]; rfl
    · exact takeWhile_isDigit_take hstop _
  have hrun : ((ds ++ rest).take most).takeWhile Char.isDigit = ds := by
    rw [List.take_append, List.take_of_length_le hlen, List.takeWhile_append_of_pos hd, hbehind,
      List.append_nil]
  simp [readDigits?, hrun, hne]

theorem skipBlanks_decimalPadded (width n : Nat) (rest : List Char) :
    skipBlanks (decimalPadded width n ++ rest) = decimalPadded width n ++ rest := by
  cases h : decimalPadded width n with
  | nil => exact absurd h (decimalPadded_ne_nil width n)
  | cons c cs =>
      have hc : c.isDigit = true :=
        @isDigit_of_mem_decimalPadded width n c (by rw [h]; exact List.mem_cons_self)
      exact skipBlanks_cons (isBlank_of_isDigit hc) _

/-- A number written in two digits is read back, whatever follows. -/
theorem readNumber?_two {n : Nat} (h : n < 100) (rest : List Char) :
    readNumber? 2 (decimalPadded 2 n ++ rest) = some (n, rest) := by
  have hlen : (decimalPadded 2 n).length = 2 := length_decimalPadded (by decide) h
  rw [readNumber?, skipBlanks_decimalPadded,
    readDigits?_append (decimalPadded_ne_nil 2 n) (fun _ => isDigit_of_mem_decimalPadded)
      (Nat.le_of_eq hlen) (Or.inl hlen)]
  simp

theorem readMark?_cons {mark : Char} (h : isBlank mark = false) (rest : List Char) :
    readMark? mark (mark :: rest) = some rest := by
  rw [readMark?, skipBlanks_cons h]
  exact if_pos rfl

/-! ## The date -/

theorem decimalPadded_append_ne_cons {c : Char} (h : c.isDigit = false) (width n : Nat)
    (rest rest' : List Char) : decimalPadded width n ++ rest ≠ c :: rest' := by
  intro heq
  cases hp : decimalPadded width n with
  | nil => exact absurd hp (decimalPadded_ne_nil width n)
  | cons d ds =>
      rw [hp, List.cons_append] at heq
      obtain ⟨rfl, -⟩ := List.cons.inj heq
      have hd : d.isDigit = true :=
        @isDigit_of_mem_decimalPadded width n d (by rw [hp]; exact List.mem_cons_self)
      exact Bool.noConfusion (h.symm.trans hd)

theorem readYear?_yearText (year : Int) (rest : List Char) :
    readYear? (yearText year ++ '-' :: rest) = some (year, '-' :: rest) := by
  have hstop : Stops ('-' :: rest) := stops_cons rfl rest
  -- behind a sign any number of digits is taken
  have hsigned : readDigits? (decimalPadded 4 year.natAbs ++ '-' :: rest).length
      (decimalPadded 4 year.natAbs ++ '-' :: rest) =
        some (decimalPadded 4 year.natAbs, '-' :: rest) :=
    readDigits?_append (decimalPadded_ne_nil 4 _) (fun _ => isDigit_of_mem_decimalPadded)
      (by simp) (Or.inr hstop)
  by_cases hneg : year < 0
  · have htext : yearText year = '-' :: decimalPadded 4 year.natAbs := if_pos hneg
    rw [htext, List.cons_append, readYear?, skipBlanks_cons rfl]
    simp only [hsigned, Option.map_some, ofDecimal_decimalPadded]
    rw [Int.ofNat_natAbs_of_nonpos (Int.le_of_lt hneg)]
    simp
  · have habs : ((year.natAbs : Nat) : Int) = year := Int.natAbs_of_nonneg (Int.not_lt.mp hneg)
    by_cases hbig : 9999 < year
    · have htext : yearText year = '+' :: decimalPadded 4 year.natAbs := by
        rw [yearText, if_neg (by omega), if_neg (by omega)]
      rw [htext, List.cons_append, readYear?, skipBlanks_cons rfl]
      simp only [hsigned, Option.map_some, ofDecimal_decimalPadded, habs]
      simp
    · have htext : yearText year = decimalPadded 4 year.natAbs := by
        rw [yearText, if_neg (by omega), if_pos (by omega)]
      have hlen : (decimalPadded 4 year.natAbs).length = 4 :=
        length_decimalPadded (by decide) (by omega)
      rw [htext, readYear?, skipBlanks_decimalPadded]
      split
      next heq => exact absurd heq (decimalPadded_append_ne_cons (by decide) 4 _ _ _)
      next heq => exact absurd heq (decimalPadded_append_ne_cons (by decide) 4 _ _ _)
      next =>
        rw [readDigits?_append (decimalPadded_ne_nil 4 _) (fun _ => isDigit_of_mem_decimalPadded)
          (Nat.le_of_eq hlen) (Or.inl hlen)]
        simp [habs]

theorem daysInMonth_le (year : Int) (month : Nat) : daysInMonth year month ≤ 31 := by
  unfold daysInMonth
  split <;> first | decide | (split <;> decide)

theorem month_le_of_daysInMonth_pos {year : Int} {month : Nat} (h : 0 < daysInMonth year month) :
    month ≤ 12 := by
  unfold daysInMonth at h
  split at h <;> omega

/-- A day that exists has a month and a number of two digits. -/
theorem lt_hundred_of_valid {d : Date} (h : d.Valid) : d.month < 100 ∧ d.day < 100 := by
  obtain ⟨-, -, hfirst, hlast⟩ := h
  have hdays := daysInMonth_le d.year d.month
  have hmonth : d.month ≤ 12 := @month_le_of_daysInMonth_pos d.year d.month (by omega)
  omega

/-- The date as it stands in front of the letter `T`. -/
def dateChars (d : Date) : List Char :=
  yearText d.year ++ '-' :: decimalPadded 2 d.month ++ '-' :: decimalPadded 2 d.day

theorem readDate?_dateChars {d : Date} (h : d.Valid) (rest : List Char) :
    readDate? (dateChars d ++ rest) = some (d, rest) := by
  obtain ⟨hmonth, hday⟩ := lt_hundred_of_valid h
  have hmark : isBlank '-' = false := by decide
  simp only [dateChars, List.append_assoc, List.cons_append, readDate?, readYear?_yearText,
    readMark?_cons hmark, readNumber?_two hmonth, readNumber?_two hday, Option.bind_eq_bind,
    Option.bind_some]
  rfl

/-! ## The time of day -/

/-- The digits of a fraction are read back if they are exactly as many as the width says. -/
theorem readFraction?_padded {width n : Nat} (hw : 0 < width) (hle : width ≤ 9)
    (hn : n < 10 ^ width) {rest : List Char} (hstop : Stops rest) :
    readFraction? ('.' :: decimalPadded width n ++ rest) = some (n * 10 ^ (9 - width), rest) := by
  have hlen : (decimalPadded width n).length = width := length_decimalPadded hw hn
  have hread : readDigits? 9 (decimalPadded width n ++ rest) = some (decimalPadded width n, rest) :=
    readDigits?_append (decimalPadded_ne_nil width n) (fun _ => isDigit_of_mem_decimalPadded)
      (by omega) (Or.inr hstop)
  have hdrop : rest.dropWhile Char.isDigit = rest := by
    cases rest with
    | nil => rfl
    | cons c rest => exact List.dropWhile_cons_of_neg (by simp [hstop c rfl])
  simp only [List.cons_append, readFraction?, hread, Option.map_some, ofDecimal_decimalPadded,
    hlen, hdrop, Nat.pow_eq]

theorem readFraction?_fractionText {n : Nat} (h : n < 1000000000) (rest : List Char) :
    readFraction? (fractionText n ++ 'Z' :: rest) = some (n, 'Z' :: rest) := by
  have hstop : Stops ('Z' :: rest) := stops_cons rfl rest
  unfold fractionText
  by_cases hzero : n = 0
  · rw [if_pos hzero, hzero]
    rfl
  · rw [if_neg hzero]
    by_cases hmillis : n % 1000000 = 0
    · rw [if_pos hmillis, readFraction?_padded (by decide) (by decide) (by omega) hstop]
      simp only [Option.some.injEq, Prod.mk.injEq, and_true]
      omega
    · rw [if_neg hmillis]
      by_cases hmicros : n % 1000 = 0
      · rw [if_pos hmicros, readFraction?_padded (by decide) (by decide) (by omega) hstop]
        simp only [Option.some.injEq, Prod.mk.injEq, and_true]
        omega
      · rw [if_neg hmicros, readFraction?_padded (by decide) (by decide) (by omega) hstop]
        simp

/-- The time of day as it stands behind the letter `T`. -/
def clockChars (c : Clock) : List Char :=
  decimalPadded 2 c.hour ++ ':' :: decimalPadded 2 c.minute ++ ':' :: decimalPadded 2 c.second ++
    fractionText c.nanosecond

theorem readClock?_clockChars {c : Clock} (h : c.Valid) (rest : List Char) :
    readClock? (clockChars c ++ 'Z' :: rest) = some (c, 'Z' :: rest) := by
  obtain ⟨hhour, hminute, hsecond, hnano⟩ := h
  have hmark : isBlank ':' = false := by decide
  simp only [clockChars, List.append_assoc, List.cons_append, readClock?,
    readNumber?_two (show c.hour < 100 by omega), readNumber?_two (show c.minute < 100 by omega),
    readNumber?_two (show c.second < 100 by omega), readMark?_cons hmark,
    readFraction?_fractionText hnano, Option.bind_eq_bind, Option.bind_some]
  rfl

/-! ## The instant -/

/-- A date and a time at offset zero are the instant itself. -/
theorem ofLocal?_zero (t : Timestamp) : ofLocal? t.date t.clock 0 = some t := by
  obtain ⟨date, clock, hd, hc⟩ := t
  obtain ⟨hhour, hminute, -, -⟩ := id hc
  have hparts : ofParts? date clock = some ⟨date, clock, hd, hc⟩ := by
    rw [ofParts?, dif_pos hd, dif_pos hc]
  have hday : ((60 * clock.hour + clock.minute : Nat) : Int) % 1440 =
      (60 * clock.hour + clock.minute : Nat) := by omega
  have hh : (60 * clock.hour + clock.minute) / 60 = clock.hour := by omega
  have hm : (60 * clock.hour + clock.minute) % 60 = clock.minute := by omega
  have hoffset : (0 : Int).natAbs < 1440 := by decide
  have hearly : ¬((60 * clock.hour + clock.minute : Nat) : Int) < 0 := by omega
  have hlate : ¬(1440 : Int) ≤ (60 * clock.hour + clock.minute : Nat) := by omega
  simp only [ofLocal?, hparts, Option.bind_eq_bind, Option.bind_some, Int.sub_zero, hday,
    Int.toNat_natCast, hh, hm, if_pos hoffset, if_neg hearly, if_neg hlate]

theorem chars_eq (t : Timestamp) :
    t.chars = dateChars t.date ++ 'T' :: (clockChars t.clock ++ ['Z']) := by
  simp [chars, dateChars, clockChars]

/-- What was written is read back. -/
@[simp] theorem ofText?_text (t : Timestamp) : ofText? t.text = some t := by
  have hparting (rest : List Char) : readParting? ('T' :: rest) = some rest := by
    simp [readParting?]
  have hoffset : readOffset? ['Z'] = some (0, []) := by decide
  have hskip : skipBlanks ['Z'] = ['Z'] := by decide
  rw [ofText?, text, String.toList_ofList, chars_eq, ofChars?]
  simp only [readDate?_dateChars t.date_valid, hparting, Option.bind_eq_bind,
    Option.bind_some, readClock?_clockChars t.clock_valid, hskip, hoffset]
  exact ofLocal?_zero t

end Gamebook.Timestamp
