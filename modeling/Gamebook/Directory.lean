/-
# Directories

A directory stores values under cell identifiers, at most one under each, in
ascending order of the identifiers.  A value stored under an identifier that is
already taken replaces the earlier one: the last writer wins.

Main statement: `find?_insert`, what a directory answers after an insertion.
-/
import Gamebook.CellId

namespace Gamebook

/-! ## Entry lists -/

namespace Entries

variable {α : Type}

/-- Put a value in its place, replacing the one with the same identifier. -/
def insert (k : CellId) (x : α) : List (CellId × α) → List (CellId × α)
  | [] => [(k, x)]
  | e :: rest =>
      if k < e.1 then (k, x) :: e :: rest
      else if k = e.1 then (k, x) :: rest
      else e :: insert k x rest

def Ascending (es : List (CellId × α)) : Prop := es.Pairwise fun a b => a.1 < b.1

theorem eq_or_mem_of_mem_insert {k : CellId} {x : α} {e : CellId × α}
    {es : List (CellId × α)} (h : e ∈ insert k x es) : e = (k, x) ∨ e ∈ es := by
  induction es with
  | nil => simpa [insert] using h
  | cons d ds ih =>
    rw [insert] at h
    split at h
    · simpa using h
    · split at h
      · rcases List.mem_cons.1 h with h | h
        · exact Or.inl h
        · exact Or.inr (List.mem_cons_of_mem _ h)
      · rcases List.mem_cons.1 h with h | h
        · exact Or.inr (h ▸ List.mem_cons_self ..)
        · exact (ih h).imp id (List.mem_cons_of_mem _)

theorem ascending_insert (k : CellId) (x : α) {es : List (CellId × α)} (h : Ascending es) :
    Ascending (insert k x es) := by
  induction es with
  | nil => exact List.pairwise_singleton _ _
  | cons d ds ih =>
    obtain ⟨hd, hds⟩ := List.pairwise_cons.1 h
    rw [insert]
    split
    next hlt =>
      refine List.pairwise_cons.2 ⟨fun e he => ?_, h⟩
      rcases List.mem_cons.1 he with rfl | he
      · exact hlt
      · exact UInt32.lt_trans hlt (hd e he)
    next hlt =>
      split
      next heq => exact List.pairwise_cons.2 ⟨fun e he => heq ▸ hd e he, hds⟩
      next hne =>
        refine List.pairwise_cons.2 ⟨fun e he => ?_, ih hds⟩
        rcases eq_or_mem_of_mem_insert he with rfl | he
        · have hvalue : d.1.value ≠ k.value := fun e => hne (congrArg CellId.mk e.symm)
          exact UInt32.lt_of_le_of_ne (UInt32.not_lt.1 hlt) hvalue
        · exact hd e he

end Entries

/-! ## The type -/

/-- Values under cell identifiers, ascending and without repetition. -/
structure Directory (α : Type) where
  entries : List (CellId × α)
  ascending : Entries.Ascending entries
deriving DecidableEq

namespace Directory

variable {α : Type}

def empty : Directory α := ⟨[], .nil⟩

/-- Store a value, replacing the one under the same identifier. -/
def insert (d : Directory α) (k : CellId) (x : α) : Directory α :=
  ⟨Entries.insert k x d.entries, Entries.ascending_insert k x d.ascending⟩

def find? (d : Directory α) (k : CellId) : Option α :=
  (d.entries.find? fun e => e.1 = k).map Prod.snd

def size (d : Directory α) : Nat := d.entries.length

/-- Store a run of values in order, so that the last one under an identifier stays. -/
def ofList (es : List (CellId × α)) : Directory α :=
  es.foldl (fun d e => d.insert e.1 e.2) empty

@[simp] theorem find?_empty (k : CellId) : (empty : Directory α).find? k = none := rfl

theorem mem_of_find? {d : Directory α} {k : CellId} {x : α} (h : d.find? k = some x) :
    (k, x) ∈ d.entries := by
  obtain ⟨⟨k', x'⟩, he, rfl⟩ := Option.map_eq_some_iff.1 h
  have hk : k' = k := by simpa using List.find?_some he
  exact hk ▸ List.mem_of_find?_eq_some he

/-- What an insertion changes: the value under its own identifier and no other. -/
theorem find?_insert (d : Directory α) (k k' : CellId) (x : α) :
    (d.insert k x).find? k' = if k = k' then some x else d.find? k' := by
  obtain ⟨es, hes⟩ := d
  simp only [find?, insert]
  induction es with
  | nil => by_cases h : k = k' <;> simp [Entries.insert, h]
  | cons e rest ih =>
    have ih := ih (List.pairwise_cons.1 hes).2
    rw [Entries.insert]
    split
    · by_cases h : k = k' <;> simp [h]
    next hlt =>
      split
      next heq => by_cases h : k = k' <;> simp [h, ← heq]
      next hne =>
        by_cases he : e.1 = k'
        · have hk : k ≠ k' := fun h => hne (h.trans he.symm)
          simp [he, hk]
        · simpa [List.find?_cons, he] using ih

end Directory

/-! ## Names by identifier -/

/-- The names of a list under their identifiers; of two names with one identifier the later
stays. -/
def namesById (names : List String) : Directory String :=
  Directory.ofList (names.map fun name => (CellId.ofName name, name))

end Gamebook
