/-
# Records and lists of saved data

A record is loaded by setting its fields one after the other.  What a record was
saved as is a list of fields that may have been left out, and a field that was
left out is as good as set if its unset value is the one it would have got.  So
the fields of a saved record are set in ascending order of their names, each of
them, whether it is there or not.

Main statements: `loadRecord_present`, `loadRecord_obj`, `loadList_map`.
-/
import Gamebook.Proofs.Json.Fields
import Gamebook.Saved.Value

namespace Gamebook.Saved

open Json (present)

variable {α β : Type}

/-! ## Records -/

theorem ok_bind (x : α) (f : α → Loaded β) : (Except.ok x : Loaded α) >>= f = f x := rfl

/-- Set a field if it has a value. -/
def setPresent (set : α → String → Json → Loaded α) (x : α) (f : String × Option Json) :
    Loaded α :=
  match f.2 with
  | none => .ok x
  | some value => set x f.1 value

theorem foldlM_present (set : α → String → Json → Loaded α)
    (fields : List (String × Option Json)) :
    ∀ x, (present fields).foldlM (fun x f => set x f.1 f.2) x =
      fields.foldlM (setPresent set) x := by
  induction fields with
  | nil => exact fun _ => rfl
  | cons f rest ih =>
      intro x
      obtain ⟨name, value⟩ := f
      cases value with
      | none => exact ih x
      | some value =>
          rw [Json.present_cons, Option.map_some, Option.toList_some, List.singleton_append,
            List.foldlM_cons, List.foldlM_cons]
          exact bind_congr ih

/-- The fields of a saved record are set in ascending order, however they were written. -/
theorem loadRecord_present {names : List String} {set : α → String → Json → Loaded α} {x y : α}
    {fields sorted : List (String × Option Json)} (hp : fields.Perm sorted)
    (hs : Json.Ascending sorted) (hload : sorted.foldlM (setPresent set) x = .ok y) :
    loadRecord names set x (.obj (present fields)) = .ok y := by
  have hset : (Json.sortFields (present fields)).foldlM (fun x f => set x f.1 f.2) x = .ok y := by
    rw [Json.sortFields_present hp hs, foldlM_present, hload]
  simp only [loadRecord, recordFields, ok_bind, hset]
  rfl

/-- Fields that are passed over may be left out. -/
theorem foldlM_filter {set : α → String → Json → Loaded α} {known : String → Bool}
    (hskip : ∀ x name value, known name = false → set x name value = .ok x)
    (fields : List (String × Json)) :
    ∀ x, fields.foldlM (fun x f => set x f.1 f.2) x =
      (fields.filter fun f => known f.1).foldlM (fun x f => set x f.1 f.2) x := by
  induction fields with
  | nil => exact fun _ => rfl
  | cons f rest ih =>
      intro x
      cases hk : known f.1 with
      | true =>
          rw [List.filter_cons, if_pos hk, List.foldlM_cons, List.foldlM_cons]
          exact bind_congr ih
      | false =>
          rw [List.filter_cons, if_neg (by simp [hk]), List.foldlM_cons, hskip _ _ _ hk, ok_bind]
          exact ih x

/-- A record is loaded by its known fields alone, in ascending order, each with the last value of
its name if there is one. -/
theorem loadRecord_obj {names : List String} {set : α → String → Json → Loaded α}
    (sorted : List String) (hsorted : sorted.Pairwise (· < ·))
    (hskip : ∀ x name value, name ∉ sorted → set x name value = .ok x) (unset : α)
    (fields : List (String × Json)) :
    loadRecord names set unset (.obj fields) =
      (sorted.map fun name => (name, (Json.obj fields).field? name)).foldlM (setPresent set)
        unset := by
  have hs : Json.Ascending (sorted.map fun name => (name, (Json.obj fields).field? name)) := by
    rw [Json.Ascending, List.map_map]
    exact (List.map_id sorted).symm ▸ hsorted
  have hfilter : ((Json.sortFields fields).filter fun f => decide (f.1 ∈ sorted)) =
      present (sorted.map fun name => (name, (Json.obj fields).field? name)) := by
    refine Json.Ascending.ext ?_ (Json.ascending_present hs) fun f => ?_
    · exact (Json.ascending_sortFields fields).sublist (List.filter_sublist.map _)
    · simp only [List.mem_filter, Json.mem_sortFields_iff, decide_eq_true_eq, present,
        List.mem_filterMap, List.mem_map, exists_exists_and_eq_and, Option.map_eq_some_iff]
      constructor
      · rintro ⟨hv, hn⟩
        exact ⟨f.1, hn, f.2, hv, rfl⟩
      · rintro ⟨name, hn, value, hv, rfl⟩
        exact ⟨hv, hn⟩
  have hskip' : ∀ x name value, decide (name ∈ sorted) = false → set x name value = .ok x :=
    fun x name value h => hskip x name value (of_decide_eq_false h)
  have hload : loadRecord names set unset (.obj fields) =
      (Json.sortFields fields).foldlM (fun x f => set x f.1 f.2) unset >>= .ok := rfl
  rw [hload, foldlM_filter hskip', hfilter, foldlM_present]
  exact bind_pure _

theorem foldlM_cons_eq_ok {set : α → β → Loaded α} {x y z : α} {f : β} {rest : List β}
    (hfirst : set x f = .ok y) (hrest : rest.foldlM set y = .ok z) :
    (f :: rest).foldlM set x = .ok z := by
  rw [List.foldlM_cons, hfirst, ok_bind, hrest]

/-! ## Lists -/

theorem loadList_map {save : β → Json} {load : Json → Loaded β} {xs : List β}
    (h : ∀ x ∈ xs, load (save x) = .ok x) : loadList load (.arr (xs.map save)) = .ok xs := by
  rw [loadList]
  induction xs with
  | nil => rfl
  | cons x xs ih =>
      rw [List.map_cons, List.mapM_cons, h x List.mem_cons_self,
        ih fun y hy => h y (List.mem_cons_of_mem _ hy)]
      rfl

/-! ## Fields that are left out when empty

Each is given by how the field is loaded and by how its value enters the record;
unset, the record has the empty value there. -/

/-- The value of a field of names, if there are any. -/
def namesValue (names : List String) : Option Json :=
  if names.isEmpty then none else some (.arr (names.map .str))

/-- The value of a field with a text, unless it is empty. -/
def textValue (text : String) : Option Json := if text = "" then none else some (.str text)

theorem namesField_eq (name : String) (names : List String) :
    namesField name names = ((namesValue names).map (Prod.mk name)).toList := by
  cases names <;> rfl

theorem textField_eq (name text : String) :
    textField name text = ((textValue text).map (Prod.mk name)).toList := by
  by_cases h : text = "" <;> simp [textField, textValue, h]

theorem optionalField_eq (name : String) (text : Option String) :
    optionalField name text = ((text.map Json.str).map (Prod.mk name)).toList := by
  cases text <;> rfl

section LeftOut

variable {set : α → String → Json → Loaded α} {x : α} {name : String}

theorem setPresent_names (update : List String → α) (names : List String)
    (hset : ∀ value, set x name value = (loadList loadString value).map update)
    (hunset : x = update []) : setPresent set x (name, namesValue names) = .ok (update names) := by
  cases names with
  | nil => exact congrArg Except.ok hunset
  | cons n ns =>
      have hload : loadList loadString (.arr ((n :: ns).map .str)) = .ok (n :: ns) :=
        loadList_map fun _ _ => rfl
      show set x name (.arr ((n :: ns).map .str)) = _
      rw [hset, hload]
      rfl

theorem setPresent_optional (update : Option String → α) (text : Option String)
    (hset : ∀ value, set x name value = (loadOptional value).map update)
    (hunset : x = update none) : setPresent set x (name, text.map .str) = .ok (update text) := by
  cases text with
  | none => exact congrArg Except.ok hunset
  | some s => exact hset (.str s)

theorem setPresent_text (update : String → α) (text : String)
    (hset : ∀ value, set x name value = (loadString value).map update)
    (hunset : x = update "") : setPresent set x (name, textValue text) = .ok (update text) := by
  by_cases h : text = ""
  · rw [h]
    exact congrArg Except.ok hunset
  · rw [textValue, if_neg h]
    exact hset (.str text)

end LeftOut

end Gamebook.Saved
