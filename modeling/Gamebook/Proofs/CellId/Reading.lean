/-
# Identifiers as texts

The digits of base sixteen stand in the order of their values, the letters after the
numerals, and an identifier always has eight of them.  So texts of eight lower-case digits
are a code of the identifiers: each is the text of one identifier, and of two identifiers
the smaller has the text that comes first.  With fewer digits for small numbers, or with
letters in both cases, the order would be another.

What is read is told by the bytes alone (`Spelled`).  Eight bytes that are digits are eight
characters, so a text with a longer character in it is refused even where it has eight
characters or eight bytes.

A story keeps its cells in the order of their identifiers and saves them in the same order
under their texts, which is therefore the order of the texts.

Main statement: `text_codes_in_order`.
-/
import Gamebook.Proofs.Saved.RoundTrip
import Gamebook.Proofs.Token.Reading

namespace Gamebook.CellId

open Page (bytesOf)

/-! ## What is read -/

/-- Eight bytes, each of them a digit of base sixteen in either letter case. -/
structure Spelled (s : String) : Prop where
  length_eq : (bytesOf s).length = 8
  digits : ∀ b ∈ bytesOf s, Token.IsHexadecimal b

/-- The eight bytes of digits are eight characters. -/
theorem spelled_iff {s : String} :
    Spelled s ↔ s.toList.length = 8 ∧ ∀ c ∈ s.toList, Text.isHex c = true := by
  have hsize : (∀ c ∈ s.toList, Text.isHex c = true) → (bytesOf s).length = s.toList.length := by
    intro hhex
    rw [Page.bytesOf_eq_utf8, Token.length_utf8, Token.sum_utf8Size_of_isHex hhex]
  have hdigits : (∀ b ∈ bytesOf s, Token.IsHexadecimal b) ↔
      ∀ c ∈ s.toList, Text.isHex c = true := by
    rw [Page.bytesOf_eq_utf8, Token.forall_isHexadecimal_iff]
  constructor
  · rintro ⟨hlength, hall⟩
    have hhex := hdigits.mp hall
    exact ⟨(hsize hhex).symm.trans hlength, hhex⟩
  · rintro ⟨hlength, hhex⟩
    exact ⟨(hsize hhex).trans hlength, hdigits.mpr hhex⟩

theorem exists_ofDigits?_iff {cs : List Char} :
    (∃ id, ofDigits? cs = some id) ↔ cs.length = 8 ∧ ∀ c ∈ cs, Text.isHex c = true := by
  rw [← Option.isSome_iff_exists, ofDigits?]
  split
  next hlength => rw [Option.isSome_map, Text.isSome_ofHex?_iff, and_iff_right hlength]
  next hlength => exact iff_of_false Bool.false_ne_true fun h => hlength h.1

theorem ofText_eq_ok_iff {s : String} {id : CellId} :
    ofText s = .ok id ↔ ofDigits? s.toList = some id := by
  rw [ofText, ofText?]
  cases ofDigits? s.toList <;> simp

/-- A text is read if it is spelled in digits, and otherwise named as the fault. -/
theorem exists_ofText_iff {s : String} : (∃ id, ofText s = .ok id) ↔ Spelled s := by
  simp only [ofText_eq_ok_iff, exists_ofDigits?_iff, spelled_iff]

theorem ofText_of_not_spelled {s : String} (h : ¬ Spelled s) :
    ofText s = .error (.invalidId s) := by
  have hnone : ofText? s = none := by
    refine Option.eq_none_iff_forall_ne_some.mpr fun id hid => h ?_
    exact exists_ofText_iff.mp ⟨id, ofText_eq_ok_iff.mpr hid⟩
  rw [ofText, hnone]

/-! ## What is printed -/

theorem toList_toLower (s : String) : s.toLower.toList = s.toList.map Char.toLower :=
  String.toList_map

/-- An identifier that was read is printed as it was read, in lower case. -/
theorem text_of_ofText {s : String} {id : CellId} (h : ofText s = .ok id) :
    id.text = s.toLower := by
  rw [← String.toList_inj, toList_text, toList_toLower]
  exact digits_of_ofDigits? (ofText_eq_ok_iff.mp h)

/-- The texts of identifiers are the texts of eight digits in lower case, and no others. -/
theorem exists_text_eq_iff {s : String} :
    (∃ id : CellId, id.text = s) ↔ s.length = 8 ∧ ∀ c ∈ s.toList, Text.IsLowerHex c := by
  constructor
  · rintro ⟨id, rfl⟩
    rw [← String.length_toList, toList_text]
    exact ⟨id.length_digits, fun c => Text.isLowerHex_of_mem_hexFixed 8⟩
  · rintro ⟨hlength, hlower⟩
    rw [← String.length_toList] at hlength
    have hspelled : Spelled s := spelled_iff.mpr ⟨hlength, fun c hc => (hlower c hc).isHex⟩
    obtain ⟨id, hid⟩ := exists_ofText_iff.mpr hspelled
    have hsame : s.toLower = s := by
      rw [← String.toList_inj, toList_toLower,
        List.map_congr_left fun c hc => (hlower c hc).toLower, List.map_id']
    exact ⟨id, (text_of_ofText hid).trans hsame⟩

/-! ## The order of texts -/

/-- Identifiers ascend exactly if their texts do. -/
theorem pairwise_map_text_iff {ids : List CellId} :
    (ids.map text).Pairwise (· < ·) ↔ ids.Pairwise (· < ·) := by
  simp only [List.pairwise_map, text_lt_text_iff]

/-- The cells of a story are saved under the texts of their identifiers, in their order. -/
structure SavedInOrder (story : Story) (fields : List (String × Json)) : Prop where
  saved : (Saved.saveStory story).field? "cells" = some (.obj fields)
  names : fields.map Prod.fst = (story.cells.entries.map Prod.fst).map text
  ids_ascend : (story.cells.entries.map Prod.fst).Pairwise fun a b =>
    a.value.toNat < b.value.toNat
  names_ascend : (fields.map Prod.fst).Pairwise (· < ·)

theorem exists_savedInOrder (story : Story) : ∃ fields, SavedInOrder story fields := by
  have hids : (story.cells.entries.map Prod.fst).Pairwise (· < ·) :=
    List.pairwise_map.mpr story.cells.ascending
  have hnames : (story.cells.entries.map fun e => (e.1.text, Saved.saveCell e.2)).map Prod.fst =
      (story.cells.entries.map Prod.fst).map text := by
    simp only [List.map_map, Function.comp_def]
  refine ⟨_, rfl, hnames, hids.imp UInt32.lt_iff_toNat_lt.mp, ?_⟩
  rw [hnames, pairwise_map_text_iff]
  exact hids

/-! ## The code -/

/-- Identifiers and texts of eight lower-case digits belong to each other one to one and in order;
reading takes upper case as well, and nothing else. -/
theorem text_codes_in_order :
    (∀ id : CellId, id.text.length = 8 ∧ (∀ c ∈ id.text.toList, Text.IsLowerHex c) ∧
      ofText id.text = .ok id) ∧
    (∀ s : String,
      ((∃ id : CellId, id.text = s) ↔ s.length = 8 ∧ ∀ c ∈ s.toList, Text.IsLowerHex c) ∧
      ((∃ id, ofText s = .ok id) ↔ Spelled s) ∧
      (¬ Spelled s → ofText s = .error (.invalidId s)) ∧
      ∀ id, ofText s = .ok id → id.text = s.toLower) ∧
    (∀ a b : CellId, a.value.toNat < b.value.toNat ↔ a.text < b.text) ∧
    ∀ story : Story, ∃ fields, SavedInOrder story fields := by
  refine ⟨fun id => ?_, fun s => ?_, fun a b => ?_, exists_savedInOrder⟩
  · obtain ⟨hlength, hlower⟩ := exists_text_eq_iff.mp ⟨id, rfl⟩
    exact ⟨hlength, hlower, ofText_text id⟩
  · exact ⟨exists_text_eq_iff, exists_ofText_iff, ofText_of_not_spelled, fun _ => text_of_ofText⟩
  · rw [text_lt_text_iff]
    exact UInt32.lt_iff_toNat_lt.symm

/-- A text in upper case is read, one of eight bytes with a longer character in it is not, and
between the last numeral and the first letter the order holds. -/
theorem text_codes_in_order_digits :
    Spelled "0044FF4A" ∧
      (∃ id, ofText "0044FF4A" = .ok id ∧ id.text = "0044ff4a") ∧
      (bytesOf "0044ffé").length = 8 ∧ ¬ Spelled "0044ffé" ∧
      ofText "0044ffé" = .error (.invalidId "0044ffé") ∧
      (⟨0x9fffffff⟩ : CellId).text < (⟨0xa0000000⟩ : CellId).text := by
  obtain ⟨-, hread, horder, -⟩ := text_codes_in_order
  have hspelled : Spelled "0044FF4A" :=
    spelled_iff.mpr ⟨by decide, List.all_eq_true.mp (by decide)⟩
  have hrefused : ¬ Spelled "0044ffé" := by
    rw [spelled_iff]
    exact fun h => absurd h.1 (by decide)
  obtain ⟨id, hid⟩ := (hread "0044FF4A").2.1.mpr hspelled
  have htext : id.text = "0044ff4a" :=
    ((hread "0044FF4A").2.2.2 id hid).trans (by decide +kernel)
  exact ⟨hspelled, ⟨id, hid, htext⟩, by decide +kernel, hrefused,
    (hread "0044ffé").2.2.1 hrefused, (horder ⟨0x9fffffff⟩ ⟨0xa0000000⟩).mp (by decide)⟩

end Gamebook.CellId
