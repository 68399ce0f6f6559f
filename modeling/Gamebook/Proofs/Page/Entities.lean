/-
# Escaped texts read back

An escaped text is read back in one pass from the left (`unescape`): where an entity begins,
its character is put down and the pass goes on behind the entity, so that nothing is read
twice and `&amp;lt;` becomes `&lt;`.  Escaping writes an ampersand only at the front of an
entity.  So the pass finds again what was escaped character by character, whatever entities
or fragments of them the text had in it before.

Texts in which every ampersand begins an entity and the other four characters are missing
(`Escaped`) are closed under being put together, which is why no entity arises or ends where
two characters meet.  They are the texts that escaping gives, and no others.

Main statement: `escape_reversible`.
-/
import Gamebook.Proofs.Page.Escape

namespace Gamebook.Page

/-! ## Reading back -/

/-- Read characters from the left, each entity as the character it stands for. -/
def unescapeChars : List Char → List Char
  | '&' :: 'l' :: 't' :: ';' :: cs => '<' :: unescapeChars cs
  | '&' :: 'g' :: 't' :: ';' :: cs => '>' :: unescapeChars cs
  | '&' :: 'a' :: 'm' :: 'p' :: ';' :: cs => '&' :: unescapeChars cs
  | '&' :: '#' :: '3' :: '9' :: ';' :: cs => '\'' :: unescapeChars cs
  | '&' :: '#' :: '3' :: '4' :: ';' :: cs => '"' :: unescapeChars cs
  | c :: cs => c :: unescapeChars cs
  | [] => []

def unescape (s : String) : String := String.ofList (unescapeChars s.toList)

/-- The characters that are written as entities. -/
def special : List Char := ['<', '>', '&', '\'', '"']

theorem escapeChar_of_not_mem {c : Char} (h : c ∉ special) : escapeChar c = [c] := by
  simp only [special, List.mem_cons, List.not_mem_nil, or_false, not_or] at h
  obtain ⟨hlt, hgt, hamp, hsingle, hdouble⟩ := h
  rw [escapeChar, if_neg hlt, if_neg hgt, if_neg hamp, if_neg hsingle, if_neg hdouble]

/-- The entities are what the special characters are written as. -/
theorem entities_eq : entities = special.map fun c => String.ofList (escapeChar c) := rfl

theorem unescapeChars_cons {c : Char} (h : c ≠ '&') (cs : List Char) :
    unescapeChars (c :: cs) = c :: unescapeChars cs := by
  simp only [unescapeChars, h, false_implies, implies_true]

/-- Behind what a character is written as, the pass has that character and goes on with the rest. -/
theorem unescapeChars_escapeChar (c : Char) (cs : List Char) :
    unescapeChars (escapeChar c ++ cs) = c :: unescapeChars cs := by
  by_cases h : c ∈ special
  · simp only [special, List.mem_cons, List.not_mem_nil, or_false] at h
    rcases h with rfl | rfl | rfl | rfl | rfl <;> rfl
  · have hamp : c ≠ '&' := fun e => h (e ▸ by decide)
    rw [escapeChar_of_not_mem h, List.singleton_append, unescapeChars_cons hamp]

theorem unescapeChars_flatMap (cs : List Char) : unescapeChars (cs.flatMap escapeChar) = cs := by
  induction cs with
  | nil => rfl
  | cons c cs ih => rw [List.flatMap_cons, unescapeChars_escapeChar, ih]

/-- What was escaped is read back. -/
theorem unescape_escape (s : String) : unescape (escape s) = s := by
  rw [unescape, toList_escape, unescapeChars_flatMap, String.ofList_toList]

theorem escape_injective : Function.Injective escape :=
  Function.LeftInverse.injective unescape_escape

theorem escape_append (s t : String) : escape (s ++ t) = escape s ++ escape t := by
  rw [← String.toList_inj, String.toList_append, toList_escape, toList_escape, toList_escape,
    String.toList_append, List.flatMap_append]

/-! ## Texts that are escaped -/

/-- Every ampersand begins an entity, and the other four characters are not there. -/
structure Escaped (cs : List Char) : Prop where
  unmarked : ∀ c ∈ cs, c ∉ ['<', '>', '\'', '"']
  entity : ∀ front back, cs = front ++ '&' :: back →
    ∃ entity ∈ entities, entity.toList <+: '&' :: back

theorem escaped_nil : Escaped [] where
  unmarked := nofun
  entity := fun front back h => absurd h (by simp)

/-- An ampersand of two texts is in one of them, with its entity. -/
theorem Escaped.append {cs cs' : List Char} (h : Escaped cs) (h' : Escaped cs') :
    Escaped (cs ++ cs') where
  unmarked := List.forall_mem_append.mpr ⟨h.unmarked, h'.unmarked⟩
  entity := by
    intro front back heq
    rcases List.append_eq_append_iff.mp heq with ⟨between, -, hback⟩ | ⟨between, hcs, hback⟩
    · exact h'.entity between back hback
    · cases between with
      | nil => exact h'.entity [] back hback.symm
      | cons c behind =>
          rw [List.cons_append, List.cons.injEq] at hback
          obtain ⟨rfl, rfl⟩ := hback
          obtain ⟨entity, hentity, hprefix⟩ := h.entity front behind hcs
          refine ⟨entity, hentity, ?_⟩
          rw [← List.cons_append]
          exact hprefix.trans (List.prefix_append _ _)

theorem Escaped.of_append {front cs : List Char} (h : Escaped (front ++ cs)) : Escaped cs where
  unmarked := (List.forall_mem_append.mp h.unmarked).2
  entity := fun front' back heq =>
    h.entity (front ++ front') back (by rw [heq, List.append_assoc])

/-- An entity has no ampersand but the one it begins with. -/
theorem escaped_entity {entity : String} (h : entity ∈ entities) : Escaped entity.toList := by
  have hentities : ∀ entity ∈ entities, (∀ c ∈ entity.toList, c ∉ ['<', '>', '\'', '"']) ∧
      '&' ∉ entity.toList.tail := by simp [entities]
  obtain ⟨hunmarked, htail⟩ := hentities entity h
  refine ⟨hunmarked, fun front back heq => ?_⟩
  cases front with
  | nil =>
      rw [List.nil_append] at heq
      exact ⟨entity, h, heq ▸ List.prefix_refl _⟩
  | cons c front =>
      rw [heq] at htail
      exact absurd (List.mem_append_right _ List.mem_cons_self) htail

theorem escaped_escapeChar (c : Char) : Escaped (escapeChar c) := by
  rcases escapeChar_cases c with ⟨entity, hentity, hc⟩ | ⟨⟨hlt, hgt, hamp, hsingle, hdouble⟩, hc⟩
  · rw [hc]
    exact escaped_entity hentity
  · rw [hc]
    constructor
    · simp [hlt, hgt, hsingle, hdouble]
    · intro front back heq
      have hmem : '&' ∈ [c] := heq ▸ List.mem_append_right _ List.mem_cons_self
      exact absurd (List.mem_singleton.mp hmem).symm hamp

theorem escaped_flatMap (cs : List Char) : Escaped (cs.flatMap escapeChar) := by
  induction cs with
  | nil => exact escaped_nil
  | cons c cs ih => exact (escaped_escapeChar c).append ih

/-- An escaped text begins with what some character is written as. -/
theorem Escaped.exists_escapeChar_append {c : Char} {cs : List Char} (h : Escaped (c :: cs)) :
    ∃ d behind, c :: cs = escapeChar d ++ behind := by
  by_cases hc : c ∈ special
  · -- of the five the ampersand alone can be there
    have hamp : c = '&' := by
      have hmark := h.unmarked c List.mem_cons_self
      simp only [special, List.mem_cons, List.not_mem_nil, or_false, not_or] at hc hmark
      tauto
    obtain ⟨entity, hentity, behind, hbehind⟩ := h.entity [] cs (by rw [hamp]; rfl)
    rw [entities_eq] at hentity
    obtain ⟨d, -, rfl⟩ := List.mem_map.mp hentity
    rw [String.toList_ofList] at hbehind
    exact ⟨d, behind, by rw [hbehind, hamp]⟩
  · exact ⟨c, cs, by rw [escapeChar_of_not_mem hc]; rfl⟩

theorem length_escapeChar_pos (c : Char) : 0 < (escapeChar c).length := by
  rcases escapeChar_cases c with ⟨entity, hentity, hc⟩ | ⟨-, hc⟩
  · have hlength : ∀ entity ∈ entities, 0 < entity.toList.length := by decide
    exact hc ▸ hlength entity hentity
  · rw [hc]
    exact Nat.one_pos

/-- An escaped text is what its characters are written as, one taken off the front at a time. -/
theorem Escaped.exists_flatMap {cs : List Char} (h : Escaped cs) :
    ∃ ds : List Char, ds.flatMap escapeChar = cs := by
  induction hn : cs.length using Nat.strongRecOn generalizing cs with
  | _ n ih =>
      cases cs with
      | nil => exact ⟨[], rfl⟩
      | cons c cs =>
          obtain ⟨d, behind, heq⟩ := h.exists_escapeChar_append
          rw [heq] at h hn ⊢
          -- no character is written as nothing, so less is left behind it
          have hshorter : behind.length < n := by
            have hpos := length_escapeChar_pos d
            rw [List.length_append] at hn
            omega
          obtain ⟨ds, hds⟩ := ih behind.length hshorter h.of_append rfl
          exact ⟨d :: ds, by rw [List.flatMap_cons, hds]⟩

theorem escape_unescape {s : String} (h : Escaped s.toList) : escape (unescape s) = s := by
  obtain ⟨ds, hds⟩ := h.exists_flatMap
  rw [unescape, ← hds, unescapeChars_flatMap, escape, String.toList_ofList, hds,
    String.ofList_toList]

/-! ## Texts that escaping leaves alone -/

theorem length_le_flatMap (cs : List Char) : cs.length ≤ (cs.flatMap escapeChar).length := by
  induction cs with
  | nil => exact Nat.le_refl _
  | cons c cs ih =>
      have hpos := length_escapeChar_pos c
      rw [List.flatMap_cons, List.length_append, List.length_cons]
      omega

/-- An entity is longer than its character, and nothing behind it makes up for that. -/
theorem flatMap_escapeChar_eq_self_iff {cs : List Char} :
    cs.flatMap escapeChar = cs ↔ ∀ c ∈ cs, c ∉ special := by
  induction cs with
  | nil => exact iff_of_true rfl nofun
  | cons c cs ih =>
      rw [List.flatMap_cons, List.forall_mem_cons, ← ih]
      by_cases hc : c ∈ special
      · refine iff_of_false (fun heq => ?_) fun h => h.1 hc
        have hlong : ∀ entity ∈ entities, 1 < entity.toList.length := by decide
        have hentity := hlong _ (entities_eq ▸ List.mem_map_of_mem hc)
        rw [String.toList_ofList] at hentity
        have hrest := length_le_flatMap cs
        have hlength := congrArg List.length heq
        rw [List.length_append, List.length_cons] at hlength
        omega
      · rw [escapeChar_of_not_mem hc, List.singleton_append, List.cons.injEq,
          and_iff_right rfl, and_iff_right hc]

theorem escape_eq_self_iff {s : String} : escape s = s ↔ ∀ c ∈ s.toList, c ∉ special := by
  rw [← flatMap_escapeChar_eq_self_iff, ← toList_escape, String.toList_inj]

/-! ## Escaping as a code -/

/-- Escaping is reversible: it gives escaped texts, all of them and each from one text only, which
reading in one pass finds. -/
theorem escape_reversible :
    (∀ s : String, Escaped (escape s).toList ∧ unescape (escape s) = s ∧
      (escape s = s ↔ ∀ c ∈ s.toList, c ∉ special)) ∧
    (∀ s : String, Escaped s.toList → escape (unescape s) = s) ∧
    Function.Injective escape ∧
    ∀ s t : String, escape (s ++ t) = escape s ++ escape t := by
  refine ⟨fun s => ⟨?_, unescape_escape s, escape_eq_self_iff⟩, fun s => escape_unescape,
    escape_injective, escape_append⟩
  rw [toList_escape]
  exact escaped_flatMap s.toList

/-- Entities and fragments of them are texts like others, and are read once. -/
theorem escape_reversible_fragments :
    escape "&lt; & #39;" = "&amp;lt; &amp; #39;" ∧ Escaped "&amp;lt; &amp; #39;".toList ∧
      unescape "&amp;lt; &amp; #39;" = "&lt; & #39;" ∧
      escape (unescape "&amp;lt; &amp; #39;") = "&amp;lt; &amp; #39;" ∧
      escape "&" ++ escape "lt;" = "&amp;lt;" := by
  obtain ⟨hall, hback, -, happend⟩ := escape_reversible
  have hescape : escape "&lt; & #39;" = "&amp;lt; &amp; #39;" := by decide +kernel
  obtain ⟨hescaped, hread, -⟩ := hall "&lt; & #39;"
  rw [hescape] at hescaped hread
  exact ⟨hescape, hescaped, hread, hback _ hescaped,
    (happend "&" "lt;").symm.trans (by decide +kernel)⟩

end Gamebook.Page
