/-
# Who wins when names share an identifier

Names are put under their identifiers one after the other, and so are cells, whether
they are stored by hand or by the compiler, which stores a cell only when the next one
opens or the source ends.  In each of the three a later entry takes the place of an
earlier one, so what is found under an identifier is the last of the row that has it
(`IsLast`), and the names in a story are those of the row of its cells put under their
identifiers.

The row of a source is that of its openings, in the order in which they are reported.

Main statement: `last_named_wins`.
-/
import Gamebook.Proofs.CellId.Collision
import Gamebook.Proofs.Source.Pass
import Mathlib.Data.Finset.Card

namespace Gamebook

/-! ## The last of a row -/

section IsLast

variable {α : Type}

/-- The last of a row that has the identifier. -/
def IsLast (idOf : α → CellId) (row : List α) (id : CellId) (x : α) : Prop :=
  ∃ front back, row = front ++ x :: back ∧ idOf x = id ∧ ∀ y ∈ back, idOf y ≠ id

theorem find?_reverse_eq_some_iff {idOf : α → CellId} {row : List α} {id : CellId} {x : α} :
    row.reverse.find? (fun y => idOf y = id) = some x ↔ IsLast idOf row id x := by
  rw [List.find?_eq_some_iff_append]
  constructor
  · rintro ⟨hx, back, front, hrow, hback⟩
    refine ⟨front.reverse, back.reverse, ?_, by simpa using hx, fun y hy => ?_⟩
    · rw [← List.reverse_reverse row, hrow]
      simp
    · simpa using hback y (List.mem_reverse.mp hy)
  · rintro ⟨front, back, rfl, hx, hback⟩
    refine ⟨by simpa using hx, back.reverse, front.reverse, by simp, fun y hy => ?_⟩
    simpa using hback y (List.mem_reverse.mp hy)

theorem exists_isLast_iff {idOf : α → CellId} {row : List α} {id : CellId} :
    (∃ x, IsLast idOf row id x) ↔ ∃ x ∈ row, idOf x = id := by
  simp only [← find?_reverse_eq_some_iff, ← Option.isSome_iff_exists, List.find?_isSome,
    List.mem_reverse, decide_eq_true_eq]

end IsLast

/-! ## Directories -/

namespace Directory

variable {α β : Type}

/-- The same identifiers with other values. -/
def map (f : α → β) (d : Directory α) : Directory β where
  entries := d.entries.map fun e => (e.1, f e.2)
  ascending := by
    rw [Entries.Ascending, List.pairwise_map]
    exact d.ascending

theorem find?_map (f : α → β) (d : Directory α) (id : CellId) :
    (d.map f).find? id = (d.find? id).map f := by
  rw [find?, find?, map, List.find?_map, Option.map_map, Option.map_map]
  rfl

theorem mem_ids_iff {d : Directory α} {id : CellId} :
    id ∈ d.entries.map Prod.fst ↔ ∃ x, d.find? id = some x := by
  simp [find?_eq_some_iff]

end Directory

/-! ## Names -/

theorem find?_namesById (names : List String) (id : CellId) :
    (namesById names).find? id = names.reverse.find? fun name => CellId.ofName name = id := by
  simp only [namesById, Directory.find?_ofList, ← List.map_reverse, List.find?_map, Option.map_map,
    Function.comp_def, Option.map_id']

theorem mem_ids_namesById {names : List String} {id : CellId} :
    id ∈ (namesById names).entries.map Prod.fst ↔ ∃ name ∈ names, CellId.ofName name = id := by
  rw [Directory.mem_ids_iff]
  simp only [find?_namesById, find?_reverse_eq_some_iff, exists_isLast_iff]

theorem size_namesById (names : List String) :
    (namesById names).size = (names.map CellId.ofName).toFinset.card := by
  have hids : ((namesById names).entries.map Prod.fst).toFinset =
      (names.map CellId.ofName).toFinset := by
    ext id
    rw [List.mem_toFinset, List.mem_toFinset, mem_ids_namesById, List.mem_map]
  rw [← hids, List.toFinset_card_of_nodup (Directory.nodup_ids _), List.length_map, Directory.size]

/-- Names that share an identifier are fewer under it than they are. -/
theorem size_namesById_le (names : List String) :
    (namesById names).size ≤ names.toFinset.card := by
  have himage : (names.map CellId.ofName).toFinset = names.toFinset.image CellId.ofName := by
    ext id
    simp
  rw [size_namesById, himage]
  exact Finset.card_image_le

/-- Under each identifier of a row of names, in ascending order, stands the last name that has
it. -/
structure NamesStand (names : List String) : Prop where
  ascending : ((namesById names).entries.map Prod.fst).Pairwise (· < ·)
  ids : ∀ id, id ∈ (namesById names).entries.map Prod.fst ↔
    ∃ name ∈ names, CellId.ofName name = id
  last : ∀ id name, (namesById names).find? id = some name ↔ IsLast CellId.ofName names id name
  size_eq : (namesById names).size = (names.map CellId.ofName).toFinset.card
  size_le : (namesById names).size ≤ names.toFinset.card

theorem namesStand (names : List String) : NamesStand names where
  ascending := Directory.ascending_ids _
  ids := fun _ => mem_ids_namesById
  last := fun id name => by rw [find?_namesById, find?_reverse_eq_some_iff]
  size_eq := size_namesById names
  size_le := size_namesById_le names

/-! ## Cells -/

/-- Under each identifier of a row of cells stands the last cell that has it, so the names of the
cells stand as the names of the row do. -/
structure CellsStand (cells : List Cell) (story : Story) : Prop where
  last : ∀ id cell, story.cell? id = some cell ↔ IsLast Cell.id cells id cell
  names : (story.cells.entries.map fun e => (e.1, e.2.name)) =
    (namesById (cells.map Cell.name)).entries

theorem cellsStand_of_cell? {cells : List Cell} {story : Story}
    (h : ∀ id, story.cell? id = cells.reverse.find? fun cell => cell.id = id) :
    CellsStand cells story where
  last := fun id cell => by rw [h, find?_reverse_eq_some_iff]
  names := by
    have hsame : story.cells.map Cell.name = namesById (cells.map Cell.name) := by
      refine Directory.ext_of_find? fun id => ?_
      have hcell : story.cells.find? id = cells.reverse.find? fun cell => cell.id = id := h id
      simp only [Directory.find?_map, hcell, find?_namesById, ← List.map_reverse, List.find?_map,
        Function.comp_def, Cell.id]
      rfl
    exact congrArg Directory.entries hsame

theorem cellsStand_insertCells (title : String) (compiledAt : Timestamp) (cells : List Cell) :
    CellsStand cells ((Story.empty title compiledAt).insertCells cells) := by
  refine cellsStand_of_cell? fun id => ?_
  have hempty : (Story.empty title compiledAt).cell? id = none := rfl
  rw [Story.cell?_insertCells, hempty, Option.or_none]

namespace Source

/-! ## The openings of a source -/

/-- The name and the label of a cell that is opened. -/
def Event.opened? : Event → Option (String × Option String)
  | cellOpened _ name label => some (name, label)
  | _ => none

/-- What a statement opens. -/
def Statement.opened? : Statement → Option (String × Option String)
  | openCell name label => some (name, label)
  | _ => none

theorem filterMap_opened? (ss : List Statement) :
    ss.filterMap Statement.opened? = (cellsOf ss).map fun cell => (cell.name, cell.label) := by
  induction ss with
  | nil => rfl
  | cons s ss ih =>
      cases s with
      | openCell name label => exact congrArg ((name, label) :: ·) ih
      | defineItem name description => exact ih
      | content line => exact ih
      | refused word => exact ih

namespace Draft

variable {compiledAt : Timestamp} {earlier : List (List Char)} {raw : List Char} {draft : Draft}
  {events : List Event}

/-- A line that is read as a statement is one more statement of the outline. -/
theorem Reached.statements_of_takes (h : Reached compiledAt earlier draft events) {s : Statement}
    (ht : draft.Takes raw s) :
    (Outline.ofKept (keptOf (earlier ++ [raw]))).statements =
      (Outline.ofKept (keptOf earlier)).statements ++ [s] := by
  have hkept : keptOf (earlier ++ [raw]) = keptOf earlier ++ [clean raw] := by
    rw [keptOf_append, keptOf_cons ht.kept]
    rfl
  rw [hkept]
  by_cases hearlier : keptOf earlier = []
  · have hunseen : draft.titleSeen = false := by simp [h.titleSeen_eq, hearlier]
    have hbegins := ht.untitled.resolve_left (by simp [hunseen])
    simp [hearlier, Outline.ofKept, hbegins, ht.reads]
  · rw [Outline.ofKept_append hearlier]
    simp [ht.reads]

theorem opened?_orphanEvents (draft : Draft) : draft.orphanEvents.filterMap Event.opened? = [] := by
  unfold orphanEvents
  split <;> rfl

theorem opened?_close (draft : Draft) : draft.close.1.filterMap Event.opened? = [] := by
  cases hc : draft.current with
  | none => simp only [close, hc, opened?_orphanEvents]
  | some cell =>
      simp only [close, hc, List.filterMap_append, opened?_orphanEvents]
      rfl

/-- The openings are reported as they stand in the outline. -/
theorem Reached.opened (h : Reached compiledAt earlier draft events) :
    events.filterMap Event.opened? =
      (Outline.ofKept (keptOf earlier)).statements.filterMap Statement.opened? := by
  induction h with
  | start => rfl
  | @read earlier raw draft next events new hr hstep ih =>
      rw [List.filterMap_append, ih]
      cases hstep with
      | blank hblank =>
          have hkept : keptOf (earlier ++ [raw]) = keptOf earlier := by
            rw [keptOf_append, keptOf_cons_of_blank hblank]
            exact List.append_nil _
          rw [hkept]
          exact List.append_nil _
      | title hkept hseen hbegins =>
          have hearlier : keptOf earlier = [] := by simpa [hr.titleSeen_eq] using hseen
          rw [keptOf_append, keptOf_cons hkept, hearlier]
          simp [keptOf, Outline.ofKept, hbegins, Event.opened?]
      | openFirst ht =>
          rw [hr.statements_of_takes ht, List.filterMap_append, List.filterMap_append,
            opened?_orphanEvents]
          rfl
      | openNext ht =>
          rw [hr.statements_of_takes ht, List.filterMap_append, List.filterMap_append,
            opened?_orphanEvents]
          rfl
      | define ht =>
          rw [hr.statements_of_takes ht, List.filterMap_append]
          rfl
      | append ht =>
          rw [hr.statements_of_takes ht, List.filterMap_append]
          rfl
      | drop ht =>
          rw [hr.statements_of_takes ht, List.filterMap_append]
          rfl

end Draft

/-- A compilation reports the openings of its cells in their order. -/
theorem opened_of_compile {compiledAt : Timestamp} {source : String} {story : Story}
    (h : (compile compiledAt source).result = .ok story) :
    (compile compiledAt source).events.filterMap Event.opened? =
      (cellsOf (outline source).statements).map fun cell => (cell.name, cell.label) := by
  obtain ⟨draft, events, hr, -, hevents⟩ := exists_reached_of_result h
  rw [hevents, List.filterMap_append, Draft.opened?_close, List.append_nil, hr.opened,
    filterMap_opened?]
  rfl

/-- Whether names, cells or the cells of a source share an identifier, the last of them is found
under it. -/
theorem last_named_wins :
    (∀ names : List String, NamesStand names) ∧
    (∀ (title : String) (compiledAt : Timestamp) (cells : List Cell),
      CellsStand cells ((Story.empty title compiledAt).insertCells cells)) ∧
    ∀ (compiledAt : Timestamp) (source : String) (story : Story),
      (compile compiledAt source).result = .ok story →
      CellsStand (cellsOf (outline source).statements) story ∧
        (compile compiledAt source).events.filterMap Event.opened? =
          (cellsOf (outline source).statements).map fun cell => (cell.name, cell.label) := by
  refine ⟨namesStand, cellsStand_insertCells, fun compiledAt source story hresult => ?_⟩
  exact ⟨cellsStand_of_cell? (describes_of_result hresult).cells, opened_of_compile hresult⟩

/-- A tomb and an inn under one identifier. -/
def innSource : String :=
  "Shared
:hall-tomb1 Among the dead
>well Climb down
:well
>isle-inn30 Row across
:isle-inn30 Among the living"

theorem last_named_wins_inn :
    ∃ story, (compile .epoch innSource).result = .ok story ∧
      story.cells.entries.map (fun e => e.2.name) = ["well", "isle-inn30"] ∧
      story.cellNamed? "hall-tomb1" = story.cellNamed? "isle-inn30" ∧
      (compile .epoch innSource).events.filterMap Event.opened? =
        [("hall-tomb1", some "Among the dead"), ("well", none),
          ("isle-inn30", some "Among the living")] := by
  have hmeet : CellId.ofName "hall-tomb1" = CellId.ofName "isle-inn30" := by decide +kernel
  have hok : (compile .epoch innSource).result.toOption.isSome = true := by decide +kernel
  obtain ⟨story, hr⟩ := exists_eq_ok_of_isSome hok
  obtain ⟨hstand, hopened⟩ := last_named_wins.2.2 .epoch innSource story hr
  have hcells : (cellsOf (outline innSource).statements).map (fun cell => (cell.name, cell.label)) =
      [("hall-tomb1", some "Among the dead"), ("well", none),
        ("isle-inn30", some "Among the living")] := by decide +kernel
  have hrow : (cellsOf (outline innSource).statements).map Cell.name =
      ["hall-tomb1", "well", "isle-inn30"] := by
    have hfirst := congrArg (List.map Prod.fst) hcells
    rwa [List.map_map] at hfirst
  have hnames := congrArg (List.map Prod.snd) hstand.names
  rw [List.map_map, hrow] at hnames
  exact ⟨story, hr, hnames.trans (by decide +kernel), congrArg story.cell? hmeet,
    hopened.trans hcells⟩

end Source

end Gamebook
