/-
# Saved stories are loaded again

What a story was saved as loads to the same story: what a line leaves out comes
back empty, the items stand in the order that loading checks, and the cells stand
under their identifiers.  Each part is loaded again by itself, from the lines
upward, and then the story.

Main statement: `saveStory_faithful`, a saved story loads to the same story, and what
is saved tells stories of different content apart.
-/
import Gamebook.Proofs.CellId
import Gamebook.Proofs.Directory
import Gamebook.Proofs.Registry.Bits
import Gamebook.Proofs.Saved.Value
import Gamebook.Proofs.Timestamp
import Gamebook.Saved.Story

namespace Gamebook.Saved

open Json (present)

/-! ## Lines -/

/-- The fields of a saved line, those that are left out among them. -/
def lineFields (line : Line) : List (String × Option Json) :=
  [("require", namesValue line.require), ("forbid", namesValue line.forbid),
    ("give", line.give.map .str), ("take", line.take.map .str),
    ("links_to", line.linksTo.map .str), ("text", textValue line.text)]

theorem saveLine_eq (line : Line) : saveLine line = .obj (present (lineFields line)) := by
  simp [saveLine, lineFields, namesField_eq, optionalField_eq, textField_eq]

/-- The fields of a line in the order in which they are set. -/
def sortedLineFields (line : Line) : List (String × Option Json) :=
  [("forbid", namesValue line.forbid), ("give", line.give.map .str),
    ("links_to", line.linksTo.map .str), ("require", namesValue line.require),
    ("take", line.take.map .str), ("text", textValue line.text)]

theorem lineFields_perm (line : Line) : (lineFields line).Perm (sortedLineFields line) :=
  -- losses move behind links, and then required names behind both
  (((List.Perm.swap ..).cons _).cons _ |>.cons _).trans (@List.perm_middle _ _ [_, _, _] _).symm

@[simp] theorem loadLine_saveLine (line : Line) : loadLine (saveLine line) = .ok line := by
  have hs : Json.Ascending (sortedLineFields line) := by
    show List.Pairwise (· < ·) ["forbid", "give", "links_to", "require", "take", "text"]
    decide
  rw [saveLine_eq]
  refine loadRecord_present (lineFields_perm line) hs ?_
  obtain ⟨require, forbid, give, take, linksTo, text⟩ := line
  refine foldlM_cons_eq_ok
    (setPresent_names (fun names => ⟨[], names, none, none, none, ""⟩) forbid (fun _ => rfl) rfl) ?_
  refine foldlM_cons_eq_ok
    (setPresent_optional (fun s => ⟨[], forbid, s, none, none, ""⟩) give (fun _ => rfl) rfl) ?_
  refine foldlM_cons_eq_ok
    (setPresent_optional (fun s => ⟨[], forbid, give, none, s, ""⟩) linksTo (fun _ => rfl) rfl) ?_
  refine foldlM_cons_eq_ok
    (setPresent_names (fun names => ⟨names, forbid, give, none, linksTo, ""⟩) require
      (fun _ => rfl) rfl) ?_
  refine foldlM_cons_eq_ok
    (setPresent_optional (fun s => ⟨require, forbid, give, s, linksTo, ""⟩) take
      (fun _ => rfl) rfl) ?_
  exact foldlM_cons_eq_ok
    (setPresent_text (fun s => ⟨require, forbid, give, take, linksTo, s⟩) text (fun _ => rfl) rfl)
    rfl

/-! ## Cells -/

def cellFields (cell : Cell) : List (String × Option Json) :=
  [("name", some (.str cell.name)), ("label", cell.label.map .str),
    ("lines", some (.arr (cell.lines.map saveLine)))]

theorem saveCell_eq (cell : Cell) : saveCell cell = .obj (present (cellFields cell)) := by
  simp [saveCell, cellFields, optionalField_eq]

@[simp] theorem loadCell_saveCell (cell : Cell) : loadCell (saveCell cell) = .ok cell := by
  have hlines : loadList loadLine (.arr (cell.lines.map saveLine)) = .ok cell.lines :=
    loadList_map fun line _ => loadLine_saveLine line
  have hs : Json.Ascending [("label", cell.label.map Json.str),
      ("lines", some (.arr (cell.lines.map saveLine))), ("name", some (.str cell.name))] := by
    show List.Pairwise (· < ·) ["label", "lines", "name"]
    decide
  have hparts : loadRecord ["name", "label", "lines"] CellParts.set ⟨none, none, none⟩
      (saveCell cell) = .ok ⟨some cell.name, cell.label, some cell.lines⟩ := by
    rw [saveCell_eq]
    refine loadRecord_present ?perm hs ?set
    case perm => exact (List.perm_append_singleton _ [_, _]).symm
    case set =>
      refine foldlM_cons_eq_ok
        (setPresent_optional (fun s => ⟨none, s, none⟩) cell.label (fun _ => rfl) rfl) ?_
      simp only [List.foldlM_cons, List.foldlM_nil, setPresent, CellParts.set, hlines, loadString,
        Except.map, ok_bind]
      rfl
  rw [loadCell, hparts]
  rfl

/-! ## Registries -/

def itemFields (item : Item) : List (String × Option Json) :=
  [("name", some (.str item.name)), ("bit_index", some (.int item.bit)),
    ("description", some (.str item.description))]

theorem saveItem_eq (item : Item) : saveItem item = .obj (present (itemFields item)) := rfl

theorem loadByte_int {n : Nat} (h : n < 256) : loadByte (.int n) = .ok n := by
  have hrange : (0 : Int) ≤ n ∧ (n : Int) < 256 := by omega
  rw [loadByte, if_pos hrange, Int.toNat_natCast]

theorem loadItem_saveItem {item : Item} (h : item.bit < 256) :
    loadItem (saveItem item) = .ok item := by
  have hs : Json.Ascending [("bit_index", some (Json.int item.bit)),
      ("description", some (.str item.description)), ("name", some (.str item.name))] := by
    show List.Pairwise (· < ·) ["bit_index", "description", "name"]
    decide
  have hparts : loadRecord ["name", "bit_index", "description"] ItemParts.set ⟨none, none, none⟩
      (saveItem item) = .ok ⟨some item.name, some item.bit, some item.description⟩ := by
    rw [saveItem_eq]
    refine loadRecord_present ?perm hs ?set
    case perm => exact (List.perm_append_singleton _ [_, _]).symm
    case set =>
      simp only [List.foldlM_cons, List.foldlM_nil, setPresent, ItemParts.set, loadByte_int h,
        loadString, Except.map, ok_bind]
      rfl
  rw [loadItem, hparts]
  rfl

/-- The items of a registry stand in the order that loading puts them in. -/
theorem sortByBit_items (r : Registry) : Registry.sortByBit r.items = r.items := by
  have hbits : (r.items.map Item.bit).Pairwise (· ≤ ·) := by
    rw [r.bits_eq]
    exact List.pairwise_le_range
  refine List.mergeSort_of_pairwise ?_
  exact (List.pairwise_map.mp hbits).imp fun h => decide_eq_true h

theorem ofItems_items (r : Registry) : Registry.ofItems r.items = .ok r := by
  have hfault : Registry.firstFault? 0 [] (Registry.sortByBit r.items) = none := by
    rw [sortByBit_items, Registry.firstFault?_eq_none_iff, ← List.range_eq_range']
    exact ⟨r.bits_eq, r.names_nodup, fun _ _ => List.not_mem_nil⟩
  rw [Registry.ofItems, dif_pos r.length_le]
  split
  next fault h => exact absurd (h.symm.trans hfault) (by simp)
  next => exact congrArg Except.ok (Registry.items_injective (sortByBit_items r))

@[simp] theorem loadRegistry_saveRegistry (r : Registry) :
    loadRegistry (saveRegistry r) = .ok r := by
  have hitems : loadList loadItem (.arr (r.items.map saveItem)) = .ok r.items :=
    loadList_map fun item hm =>
      loadItem_saveItem (Nat.lt_trans (Registry.bit_lt hm) (by decide))
  rw [loadRegistry, saveRegistry, hitems]
  show checked (Registry.ofItems r.items) = .ok r
  rw [ofItems_items]
  rfl

/-! ## Directories of cells -/

theorem ascending_cellFields (cells : Directory Cell) :
    Json.Ascending (cells.entries.map fun e => (e.1.text, saveCell e.2)) := by
  rw [Json.Ascending, List.map_map, List.pairwise_map]
  exact cells.ascending.imp fun h => CellId.text_lt_text_iff.mpr h

theorem loadEntry_text (cells : Directory Cell) (id : CellId) (cell : Cell) :
    loadEntry cells id.text (saveCell cell) = .ok (cells.insert id cell) := by
  rw [loadEntry, CellId.ofText_text, loadCell_saveCell]
  rfl

theorem foldlM_loadEntry (entries : List (CellId × Cell)) :
    ∀ cells : Directory Cell,
      (entries.map fun e => (e.1.text, saveCell e.2)).foldlM
          (fun cells f => loadEntry cells f.1 f.2) cells =
        .ok (entries.foldl (fun cells e => cells.insert e.1 e.2) cells) := by
  induction entries with
  | nil => exact fun _ => rfl
  | cons e rest ih =>
      intro cells
      exact foldlM_cons_eq_ok (loadEntry_text cells e.1 e.2) (ih _)

@[simp] theorem loadCells_saveCells (cells : Directory Cell) :
    loadCells (saveCells cells) = .ok cells := by
  rw [saveCells, loadCells, Json.sortFields_of_ascending (ascending_cellFields cells),
    foldlM_loadEntry]
  exact congrArg Except.ok (Directory.ofList_entries cells)

/-! ## Stories -/

def storyFields (story : Story) : List (String × Option Json) :=
  [("title", some (.str story.title)), ("cells", some (saveCells story.cells)),
    ("items", some (saveRegistry story.items)),
    ("compiled_at", some (.str story.compiledAt.text))]

theorem saveStory_eq (story : Story) : saveStory story = .obj (present (storyFields story)) := rfl

/-- The fields of a story in the order in which they are set. -/
def sortedStoryFields (story : Story) : List (String × Option Json) :=
  [("cells", some (saveCells story.cells)), ("compiled_at", some (.str story.compiledAt.text)),
    ("items", some (saveRegistry story.items)), ("title", some (.str story.title))]

theorem storyFields_perm (story : Story) : (storyFields story).Perm (sortedStoryFields story) :=
  -- the title moves to the end, and then the items behind the timestamp
  (List.perm_append_singleton _ [_, _, _]).symm.trans ((List.Perm.swap ..).cons _)

theorem assemble_story (story : Story) :
    assemble story.title story.cells story.items story.compiledAt = .ok story := by
  have hnone : firstMisaddressed? story.cells = none := by
    refine List.find?_eq_none.mpr fun e he => ?_
    simpa using story.addressed e he
  unfold assemble
  split
  next stored cell h => exact absurd (h.symm.trans hnone) (by simp)
  next => rfl

theorem loadTimestamp_text (t : Timestamp) : loadTimestamp (.str t.text) = .ok t := by
  simp only [loadTimestamp, loadString, ok_bind, Timestamp.ofText?_text, required]

/-- A saved story loads to the story that was saved. -/
@[simp] theorem loadStory_saveStory (story : Story) : loadStory (saveStory story) = .ok story := by
  have hs : Json.Ascending (sortedStoryFields story) := by
    show List.Pairwise (· < ·) ["cells", "compiled_at", "items", "title"]
    decide
  have hparts : loadRecord ["title", "cells", "items", "compiled_at"] StoryParts.set
      ⟨none, none, none, none⟩ (saveStory story) =
        .ok ⟨some story.title, some story.cells, some story.items, some story.compiledAt⟩ := by
    rw [saveStory_eq]
    refine loadRecord_present (storyFields_perm story) hs ?_
    simp only [sortedStoryFields, List.foldlM_cons, List.foldlM_nil, setPresent, StoryParts.set,
      loadCells_saveCells, loadTimestamp_text, loadRegistry_saveRegistry, loadString, Except.map,
      ok_bind]
    rfl
  rw [loadStory, hparts]
  show checked (assemble story.title story.cells story.items story.compiledAt) = .ok story
  rw [assemble_story]
  rfl

/-! ## What is saved tells stories apart -/

/-- An object without the fields of a name. -/
def without (name : String) : Json → Json
  | .obj fields => .obj (fields.filter fun f => f.1 ≠ name)
  | value => value

theorem without_saveStory (story : Story) :
    without "compiled_at" (saveStory story) =
      .obj [("title", .str story.title), ("cells", saveCells story.cells),
        ("items", saveRegistry story.items)] := by
  simp [saveStory, without]

theorem saveCells_injective {cells cells' : Directory Cell}
    (h : saveCells cells = saveCells cells') : cells = cells' := by
  have hload : loadCells (saveCells cells) = loadCells (saveCells cells') := by rw [h]
  simpa using hload

theorem saveRegistry_injective {r r' : Registry} (h : saveRegistry r = saveRegistry r') :
    r = r' := by
  have hload : loadRegistry (saveRegistry r) = loadRegistry (saveRegistry r') := by rw [h]
  simpa using hload

theorem sameContent_iff {a b : Story} :
    a.sameContent b = true ↔ a.title = b.title ∧ a.cells = b.cells ∧ a.items = b.items := by
  simp [Story.sameContent, and_assoc]

/-- Every story, however it came to be, is loaded again from what it was saved as, with the same
content and timestamp, and is then saved as the same data.  Two stories have the same content
exactly if they are saved as the same data up to the timestamp. -/
theorem saveStory_faithful :
    (∀ story : Story, ∃ again, loadStory (saveStory story) = .ok again ∧
        again.sameContent story = true ∧ again.compiledAt = story.compiledAt ∧
        saveStory again = saveStory story) ∧
      ∀ a b : Story, a.sameContent b = true ↔
        without "compiled_at" (saveStory a) = without "compiled_at" (saveStory b) := by
  constructor
  · intro story
    exact ⟨story, loadStory_saveStory story, sameContent_iff.mpr ⟨rfl, rfl, rfl⟩, rfl, rfl⟩
  · intro a b
    rw [sameContent_iff, without_saveStory, without_saveStory]
    constructor
    · rintro ⟨htitle, hcells, hitems⟩
      rw [htitle, hcells, hitems]
    · intro h
      simp only [Json.obj.injEq, List.cons.injEq, Prod.mk.injEq, Json.str.injEq, true_and,
        and_true] at h
      obtain ⟨htitle, hcells, hitems⟩ := h
      exact ⟨htitle, saveCells_injective hcells, saveRegistry_injective hitems⟩

end Gamebook.Saved
