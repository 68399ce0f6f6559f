/-
# Text that is no markup

An angle bracket ends a text, and a quote ends an attribute value.  Escaped texts
have neither, nor have the digits of identifiers, states and tokens, so all of these
can stand anywhere in a page without a change to its tags.

Main statements: `markupFree_escape`, `markupFree_tokenText`.
-/
import Gamebook.Page.Escape
import Gamebook.Proofs.Text.Numeral
import Gamebook.Proofs.Token

namespace Gamebook.Page

/-- The characters that begin and end tags and attribute values. -/
def isMarkup (c : Char) : Bool := c = '<' || c = '>' || c = '"'

def MarkupFree (s : String) : Prop := ∀ c ∈ s.toList, isMarkup c = false

instance (s : String) : Decidable (MarkupFree s) := List.decidableBAll _ s.toList

theorem MarkupFree.append {s t : String} (hs : MarkupFree s) (ht : MarkupFree t) :
    MarkupFree (s ++ t) := by
  intro c hc
  rw [String.toList_append, List.mem_append] at hc
  rcases hc with hc | hc
  · exact hs c hc
  · exact ht c hc

theorem MarkupFree.not_mem {s : String} (h : MarkupFree s) {c : Char} (hc : isMarkup c = true) :
    c ∉ s.toList := by
  intro hmem
  exact absurd (h c hmem) (by simp [hc])

/-! ## Escaped texts -/

/-- What the five characters are written as. -/
def entities : List String := ["&lt;", "&gt;", "&amp;", "&#39;", "&#34;"]

/-- A character is written as an entity, or as itself if it is none of the five. -/
theorem escapeChar_cases (c : Char) :
    (∃ entity ∈ entities, escapeChar c = entity.toList) ∨
      (c ≠ '<' ∧ c ≠ '>' ∧ c ≠ '&' ∧ c ≠ '\'' ∧ c ≠ '"') ∧ escapeChar c = [c] := by
  unfold escapeChar
  by_cases hlt : c = '<'
  · exact Or.inl ⟨"&lt;", by decide, if_pos hlt⟩
  by_cases hgt : c = '>'
  · exact Or.inl ⟨"&gt;", by decide, by rw [if_neg hlt, if_pos hgt]⟩
  by_cases hamp : c = '&'
  · exact Or.inl ⟨"&amp;", by decide, by rw [if_neg hlt, if_neg hgt, if_pos hamp]⟩
  by_cases hsingle : c = '\''
  · exact Or.inl ⟨"&#39;", by decide,
      by rw [if_neg hlt, if_neg hgt, if_neg hamp, if_pos hsingle]⟩
  by_cases hdouble : c = '"'
  · exact Or.inl ⟨"&#34;", by decide,
      by rw [if_neg hlt, if_neg hgt, if_neg hamp, if_neg hsingle, if_pos hdouble]⟩
  · exact Or.inr ⟨⟨hlt, hgt, hamp, hsingle, hdouble⟩,
      by rw [if_neg hlt, if_neg hgt, if_neg hamp, if_neg hsingle, if_neg hdouble]⟩

theorem toList_escape (s : String) : (escape s).toList = s.toList.flatMap escapeChar :=
  String.toList_ofList

theorem markupFree_escape (s : String) : MarkupFree (escape s) := by
  intro d hd
  rw [toList_escape, List.mem_flatMap] at hd
  obtain ⟨c, -, hd⟩ := hd
  have hentities : ∀ entity ∈ entities, MarkupFree entity := by decide
  rcases escapeChar_cases c with ⟨entity, hentity, hc⟩ | ⟨⟨hlt, hgt, -, -, hdouble⟩, hc⟩
  · exact hentities entity hentity d (hc ▸ hd)
  · rw [hc, List.mem_singleton] at hd
    simp [isMarkup, hd, hlt, hgt, hdouble]

/-! ## Digits -/

theorem isLowerHex_of_mem_cellText {id : CellId} {c : Char} (h : c ∈ id.text.toList) :
    Text.IsLowerHex c := by
  rw [CellId.toList_text] at h
  exact Text.isLowerHex_of_mem_hexFixed 8 h

theorem isLowerHex_of_mem_heldText {held : Holdings} {c : Char} (h : c ∈ held.text.toList) :
    Text.IsLowerHex c := by
  have hmem : c ∈ Text.decimal held.bits.toNat := by simpa [Holdings.text, Text.decimal] using h
  exact Or.inl (Text.isDigit_of_mem_decimal hmem)

theorem not_isMarkup_of_isLowerHex {c : Char} (h : Text.IsLowerHex c) : isMarkup c = false :=
  Text.of_toNat_lt (p := fun c => Text.IsLowerHex c → isMarkup c = false) (by decide) h.toNat_lt h

theorem markupFree_cellText (id : CellId) : MarkupFree id.text :=
  fun _ hc => not_isMarkup_of_isLowerHex (isLowerHex_of_mem_cellText hc)

theorem markupFree_heldText (held : Holdings) : MarkupFree held.text :=
  fun _ hc => not_isMarkup_of_isLowerHex (isLowerHex_of_mem_heldText hc)

theorem markupFree_tokenText (t : Token) : MarkupFree t.text :=
  (markupFree_cellText t.cell).append (markupFree_heldText t.held)

end Gamebook.Page
