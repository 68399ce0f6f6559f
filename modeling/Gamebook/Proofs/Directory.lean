/-
# Directories as what they answer

A directory is determined by its answers: entries are ascending, so nothing of
the order in which values were stored is left.

Main statements: `find?_foldl_insert`, a run of insertions answers with the last
value under an identifier; `ext_of_find?`, equal answers make equal directories;
`ofList_entries`, the entries of a directory stored again give it back.
-/
import Gamebook.Directory
import Mathlib.Data.List.Sort

namespace Gamebook.Directory

variable {α : Type}

/-! ## Identifiers -/

theorem ascending_ids (d : Directory α) : (d.entries.map Prod.fst).Pairwise (· < ·) :=
  List.pairwise_map.mpr d.ascending

theorem nodup_ids (d : Directory α) : (d.entries.map Prod.fst).Nodup := by
  have : Std.Irrefl fun a b : CellId => a < b := ⟨fun a => UInt32.lt_irrefl a.value⟩
  exact d.ascending_ids.nodup

/-! ## A run of insertions -/

/-- The last value stored under an identifier is found, else the one that was there. -/
theorem find?_foldl_insert (es : List (CellId × α)) (k : CellId) :
    ∀ d : Directory α,
      (es.foldl (fun d e => d.insert e.1 e.2) d).find? k =
        ((es.reverse.find? fun e => e.1 = k).map Prod.snd).or (d.find? k) := by
  induction es with
  | nil => intro d; rfl
  | cons e rest ih =>
      intro d
      rw [List.foldl_cons, ih, find?_insert, List.reverse_cons, List.find?_append]
      cases rest.reverse.find? fun e => e.1 = k with
      | some found => rfl
      | none => by_cases h : e.1 = k <;> simp [h]

theorem find?_ofList (es : List (CellId × α)) (k : CellId) :
    (ofList es).find? k = (es.reverse.find? fun e => e.1 = k).map Prod.snd := by
  rw [ofList, find?_foldl_insert, find?_empty, Option.or_none]

/-! ## Answers determine the directory -/

theorem entries_injective {d d' : Directory α} (h : d.entries = d'.entries) : d = d' := by
  cases d
  cases d'
  cases h
  rfl

/-- Identifiers are apart, so an entry is what a search for its identifier finds. -/
theorem find?_of_mem {d : Directory α} {k : CellId} {x : α} (h : (k, x) ∈ d.entries) :
    d.find? k = some x := by
  obtain ⟨es, hes⟩ := d
  simp only [find?] at h ⊢
  induction es with
  | nil => simp at h
  | cons e rest ih =>
      obtain ⟨he, hrest⟩ := List.pairwise_cons.mp hes
      rcases List.mem_cons.mp h with rfl | hm
      · simp
      · have hne : e.1 ≠ k := fun heq => UInt32.lt_irrefl _ (heq ▸ he _ hm)
        rw [List.find?_cons_of_neg (by simpa using hne)]
        exact ih hrest hm

theorem find?_eq_some_iff {d : Directory α} {k : CellId} {x : α} :
    d.find? k = some x ↔ (k, x) ∈ d.entries :=
  ⟨mem_of_find?, find?_of_mem⟩

theorem ext_of_find? {d d' : Directory α} (h : ∀ k, d.find? k = d'.find? k) : d = d' := by
  have hmem : ∀ e, e ∈ d.entries ↔ e ∈ d'.entries := by
    intro e
    rw [← find?_eq_some_iff (k := e.1), ← find?_eq_some_iff (k := e.1), h]
  have : Std.Irrefl fun a b : CellId × α => a.1 < b.1 := ⟨fun a => UInt32.lt_irrefl a.1.value⟩
  have : Std.Antisymm fun a b : CellId × α => a.1 < b.1 :=
    ⟨fun a b hab hba => absurd hab (UInt32.lt_asymm hba)⟩
  exact entries_injective (d.ascending.eq_of_mem_iff d'.ascending hmem)

/-- Storing the entries of a directory one after the other gives it back. -/
theorem ofList_entries (d : Directory α) : ofList d.entries = d := by
  refine ext_of_find? fun k => ?_
  rw [find?_ofList]
  cases hd : d.entries.reverse.find? fun e => e.1 = k with
  | some e =>
      have hk : e.1 = k := by simpa using List.find?_some hd
      have hm : e ∈ d.entries := List.mem_reverse.mp (List.mem_of_find?_eq_some hd)
      exact (find?_of_mem (hk ▸ hm)).symm
  | none =>
      have hnone : d.find? k = none := by
        refine Option.eq_none_iff_forall_ne_some.mpr fun x hx => ?_
        simpa using List.find?_eq_none.mp hd _ (List.mem_reverse.mpr (mem_of_find? hx))
      rw [hnone]
      rfl

end Gamebook.Directory
