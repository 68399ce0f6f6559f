/-
# Fields in the order of their names

Sorting keeps the last field of each name and puts these in strict order, and the
order leaves no choice (`Ascending.ext`): sorted fields are known by what they hold
(`mem_sortFields_iff`).  Of distinct names nothing is lost, so the sorted fields are
then the one strictly ascending arrangement of them.

A record that leaves empty fields out is a list of fields that may have no value
(`present`).  Which fields are there does not matter for their order: the fields
of a record, sorted, are the present ones of the record's fields, sorted.

Main statements: `mem_sortFields_iff`, `sortFields_eq_of_perm`, `sortFields_present`.
-/
import Gamebook.Json
import Mathlib.Data.List.Induction
import Mathlib.Data.List.Sort

namespace Gamebook.Json

def Ascending {α : Type} (fields : List (String × α)) : Prop :=
  (fields.map Prod.fst).Pairwise (· < ·)

theorem Ascending.nodup {α : Type} {fields : List (String × α)} (h : Ascending fields) :
    (fields.map Prod.fst).Nodup := List.Pairwise.nodup h

theorem Ascending.pairwise {α : Type} {fields : List (String × α)} (h : Ascending fields) :
    fields.Pairwise fun f g => f.1 < g.1 := List.pairwise_map.mp h

/-! ## One field -/

section InsertField

variable {name : String} {value : Json}

/-- What is in the fields afterwards: the new one, and those of other names. -/
theorem mem_insertField_iff {fields : List (String × Json)} (hs : Ascending fields)
    {f : String × Json} :
    f ∈ insertField name value fields ↔ f = (name, value) ∨ f ∈ fields ∧ f.1 ≠ name := by
  induction fields with
  | nil => simp [insertField]
  | cons g rest ih =>
      obtain ⟨hg, hrest⟩ := List.pairwise_cons.mp (Ascending.pairwise hs)
      have hgt : ∀ {n : String}, ¬g.1 < n → ∀ h ∈ rest, h.1 ≠ n := fun hle h hm e =>
        hle (e ▸ hg h hm)
      rw [insertField]
      split
      next hlt =>
        have hne : ∀ h ∈ g :: rest, h.1 ≠ name := by
          intro h hm
          rcases List.mem_cons.mp hm with rfl | hm
          · exact fun e => String.lt_irrefl _ (e ▸ hlt)
          · exact hgt (String.lt_asymm hlt) h hm
        rw [List.mem_cons, and_iff_left_of_imp (hne f)]
      next hge =>
        split
        next heq =>
          have hne := hgt (n := name) (heq ▸ String.lt_irrefl _)
          rw [List.mem_cons, List.mem_cons]
          constructor
          · rintro (h | h)
            · exact Or.inl h
            · exact Or.inr ⟨Or.inr h, hne f h⟩
          · rintro (h | ⟨rfl | h, hn⟩)
            · exact Or.inl h
            · exact absurd heq.symm hn
            · exact Or.inr h
        next hne =>
          rw [List.mem_cons, ih (List.pairwise_map.mpr hrest), List.mem_cons]
          constructor
          · rintro (rfl | h | ⟨h, hn⟩)
            · exact Or.inr ⟨Or.inl rfl, fun e => hne e.symm⟩
            · exact Or.inl h
            · exact Or.inr ⟨Or.inr h, hn⟩
          · rintro (h | ⟨rfl | h, hn⟩)
            · exact Or.inr (Or.inl h)
            · exact Or.inl rfl
            · exact Or.inr (Or.inr ⟨h, hn⟩)

theorem ascending_insertField {fields : List (String × Json)} (hs : Ascending fields) :
    Ascending (insertField name value fields) := by
  induction fields with
  | nil => exact List.pairwise_singleton _ _
  | cons f rest ih =>
      obtain ⟨hf, hrest⟩ := List.pairwise_cons.mp hs
      rw [insertField]
      split
      next hlt =>
        refine List.pairwise_cons.mpr ⟨fun g hg => ?_, hs⟩
        rcases List.mem_cons.mp hg with rfl | hg
        · exact hlt
        · exact String.lt_trans hlt (hf g hg)
      next hge =>
        split
        next heq => exact List.pairwise_cons.mpr ⟨fun g hg => heq ▸ hf g hg, hrest⟩
        next hne =>
          refine List.pairwise_cons.mpr ⟨fun g hg => ?_, ih hrest⟩
          -- behind the first field stand the new one and those that stood there before
          obtain ⟨h, hh, rfl⟩ := List.mem_map.mp hg
          rcases (mem_insertField_iff hrest).mp hh with rfl | ⟨hm, -⟩
          · exact Std.lt_of_le_of_ne (String.not_lt.mp hge) (Ne.symm hne)
          · exact hf _ (List.mem_map_of_mem hm)

end InsertField

/-! ## All fields -/

theorem field?_concat (fields : List (String × Json)) (f : String × Json) (name : String) :
    (obj (fields ++ [f])).field? name =
      if f.1 = name then some f.2 else (obj fields).field? name := by
  simp only [field?, List.reverse_append, List.reverse_singleton, List.singleton_append,
    List.find?_cons]
  by_cases h : f.1 = name <;> simp [h]

/-- Sorted, fields are in strict order and hold the last value of each name. -/
theorem ascending_sortFields_and_mem (fields : List (String × Json)) :
    Ascending (sortFields fields) ∧
      ∀ f, f ∈ sortFields fields ↔ (obj fields).field? f.1 = some f.2 := by
  induction fields using List.reverseRecOn with
  | nil => exact ⟨.nil, fun f => by simp [sortFields, field?]⟩
  | append_singleton fields g ih =>
      obtain ⟨hs, hm⟩ := ih
      have hsort : sortFields (fields ++ [g]) = insertField g.1 g.2 (sortFields fields) :=
        List.foldl_append ..
      rw [hsort]
      refine ⟨ascending_insertField hs, fun f => ?_⟩
      rw [mem_insertField_iff hs, hm, field?_concat]
      by_cases h : g.1 = f.1
      · simp only [h, if_true, Option.some.injEq, ne_eq, not_true_eq_false, and_false, or_false]
        exact ⟨fun e => (congrArg Prod.snd e).symm, fun e => Prod.ext rfl e.symm⟩
      · have hne : f ≠ (g.1, g.2) := fun e => h (congrArg Prod.fst e).symm
        simp [h, Ne.symm h, hne]

theorem ascending_sortFields (fields : List (String × Json)) : Ascending (sortFields fields) :=
  (ascending_sortFields_and_mem fields).1

theorem mem_sortFields_iff {fields : List (String × Json)} {f : String × Json} :
    f ∈ sortFields fields ↔ (obj fields).field? f.1 = some f.2 :=
  (ascending_sortFields_and_mem fields).2 f

theorem mem_of_field? {fields : List (String × Json)} {name : String} {value : Json}
    (h : (obj fields).field? name = some value) : (name, value) ∈ fields := by
  obtain ⟨f, hf, rfl⟩ := Option.map_eq_some_iff.mp h
  have hname : f.1 = name := by simpa using List.find?_some hf
  exact hname ▸ List.mem_reverse.mp (List.mem_of_find?_eq_some hf)

/-- A name that is there has a value. -/
theorem exists_field? {fields : List (String × Json)} {f : String × Json} (h : f ∈ fields) :
    ∃ value, (obj fields).field? f.1 = some value := by
  have hfound : (fields.reverse.find? fun g => g.1 = f.1).isSome := by
    rw [List.find?_isSome]
    exact ⟨f, List.mem_reverse.mpr h, by simp⟩
  obtain ⟨g, hg⟩ := Option.isSome_iff_exists.mp hfound
  exact ⟨g.2, by rw [field?, hg]; rfl⟩

/-- The order leaves no choice. -/
theorem Ascending.ext {fields fields' : List (String × Json)} (h : Ascending fields)
    (h' : Ascending fields') (hm : ∀ f, f ∈ fields ↔ f ∈ fields') : fields = fields' := by
  have : Std.Irrefl fun f g : String × Json => f.1 < g.1 := ⟨fun f => String.lt_irrefl f.1⟩
  have : Std.Antisymm fun f g : String × Json => f.1 < g.1 :=
    ⟨fun f g hfg hgf => absurd hfg (String.lt_asymm hgf)⟩
  exact h.pairwise.eq_of_mem_iff h'.pairwise hm

/-- Fields of distinct names, sorted, are their only ascending arrangement. -/
theorem sortFields_eq_of_perm {fields sorted : List (String × Json)} (hp : fields.Perm sorted)
    (hs : Ascending sorted) : sortFields fields = sorted := by
  have hn : (fields.map Prod.fst).Nodup := (hp.map Prod.fst).symm.nodup hs.nodup
  refine (ascending_sortFields fields).ext hs fun f => ?_
  rw [mem_sortFields_iff, ← hp.mem_iff]
  refine ⟨mem_of_field?, fun hf => ?_⟩
  obtain ⟨value, hvalue⟩ := exists_field? hf
  have hsame : (f.1, value) = f := List.inj_on_of_nodup_map hn (mem_of_field? hvalue) hf rfl
  rw [hvalue, ← hsame]

theorem sortFields_of_ascending {fields : List (String × Json)} (h : Ascending fields) :
    sortFields fields = fields := sortFields_eq_of_perm (.refl _) h

/-! ## Fields that may be left out -/

def present (fields : List (String × Option Json)) : List (String × Json) :=
  fields.filterMap fun f => f.2.map (Prod.mk f.1)

@[simp] theorem present_nil : present [] = [] := rfl

@[simp] theorem present_cons (f : String × Option Json) (fields : List (String × Option Json)) :
    present (f :: fields) = (f.2.map (Prod.mk f.1)).toList ++ present fields := by
  obtain ⟨name, value⟩ := f
  cases value <;> rfl

theorem map_fst_present_sublist (fields : List (String × Option Json)) :
    ((present fields).map Prod.fst).Sublist (fields.map Prod.fst) := by
  induction fields with
  | nil => exact .slnil
  | cons f rest ih =>
      obtain ⟨name, value⟩ := f
      cases value with
      | none => exact ih.cons name
      | some value => exact ih.cons_cons name

theorem ascending_present {fields : List (String × Option Json)} (h : Ascending fields) :
    Ascending (present fields) := List.Pairwise.sublist (map_fst_present_sublist fields) h

theorem sortFields_present {fields sorted : List (String × Option Json)} (hp : fields.Perm sorted)
    (hs : Ascending sorted) : sortFields (present fields) = present sorted :=
  sortFields_eq_of_perm (hp.filterMap _) (ascending_present hs)

end Gamebook.Json
